import Mathlib.Data.List.Forall2
import Mathlib.Logic.ExistsUnique
import SealedMetadata.Proofs.Blob.TextForm

/-!
The ways in which a blob can begin. Every blob begins in exactly one of them, within its first eight
bytes, and each of them settles what is read off the blob: a format or the reason why there is none.
Encryption writes the beginning of the format that was asked for.
-/

namespace SealedMetadata.Blob

/-- The three digits of a number below a thousand. -/
def numeral (n : Nat) : Bytes :=
  [(48 + n / 100).toUInt8, (48 + n / 10 % 10).toUInt8, (48 + n % 10).toUInt8]

/-- A way in which a blob can begin: like the formats, with another number, like an encoded blob,
with too few bytes for a number, and with three bytes that are no number. -/
inductive Opening
  | format (v : Version)
  | number (n : Nat)
  | encoded
  | short
  | unmarked (marker : Bytes)

namespace Opening

/-- A blob begins in this way. -/
def Opens (blob : Bytes) : Opening → Prop
  | format .cbc => Salted.marker <+: blob ∨ numeral 1 <+: blob
  | format .gcm => numeral 2 <+: blob
  | number n => n < 1000 ∧ n ≠ 1 ∧ n ≠ 2 ∧ numeral n <+: blob
  | encoded => encodedMarker <+: blob
  | short => blob.length < 3
  | unmarked marker => marker.length = 3 ∧ marker <+: blob ∧ (∀ n < 1000, numeral n ≠ marker) ∧
      ¬ Salted.marker <+: blob ∧ ¬ encodedMarker <+: blob

/-- What is read off a blob that begins in this way. -/
def outcome : Opening → Except Failure Version
  | format v => .ok v
  | number n => .error (.unsupportedVersion (toString n))
  | encoded => .error (.malformed .encodedTwice)
  | short => .error (.malformed .shorterThanMarker)
  | unmarked marker => .error (.invalidMarker marker)

end Opening

theorem digit_spec :
    ∀ d < 10, isDigit (48 + d).toUInt8 = true ∧ (48 + d).toUInt8.toNat - 48 = d := by
  decide

theorem isDigit_spec (b : UInt8) :
    isDigit b = true → b.toNat - 48 < 10 ∧ (48 + (b.toNat - 48)).toUInt8 = b := by
  revert b
  apply forall_byte
  decide +kernel

theorem all_isDigit_numeral {n : Nat} (hn : n < 1000) : (numeral n).all isDigit = true := by
  have hfirst := (digit_spec (n / 100) (by omega)).1
  have hsecond := (digit_spec (n / 10 % 10) (by omega)).1
  have hthird := (digit_spec (n % 10) (by omega)).1
  simp only [numeral, List.all_cons, List.all_nil, hfirst, hsecond, hthird, Bool.and_true]

theorem markerNumber_numeral {n : Nat} (hn : n < 1000) : markerNumber (numeral n) = n := by
  have hfirst := (digit_spec (n / 100) (by omega)).2
  have hsecond := (digit_spec (n / 10 % 10) (by omega)).2
  have hthird := (digit_spec (n % 10) (by omega)).2
  simp only [markerNumber, numeral, List.foldl_cons, List.foldl_nil, hfirst, hsecond, hthird]
  omega

/-- Three digits are the numeral of the number that they spell. -/
theorem exists_numeral {marker : Bytes} (hlength : marker.length = 3)
    (hdigits : marker.all isDigit = true) : ∃ n < 1000, numeral n = marker := by
  match marker, hlength with
  | [a, b, c], _ =>
    rw [List.all_eq_true] at hdigits
    have ha := isDigit_spec a (hdigits a (by simp))
    have hb := isDigit_spec b (hdigits b (by simp))
    have hc := isDigit_spec c (hdigits c (by simp))
    obtain ⟨n, hn⟩ : ∃ n, n = 100 * (a.toNat - 48) + 10 * (b.toNat - 48) + (c.toNat - 48) :=
      ⟨_, rfl⟩
    have hfirst : n / 100 = a.toNat - 48 := by omega
    have hsecond : n / 10 % 10 = b.toNat - 48 := by omega
    have hthird : n % 10 = c.toNat - 48 := by omega
    refine ⟨n, by omega, ?_⟩
    rw [numeral, hfirst, hsecond, hthird, ha.2, hb.2, hc.2]

theorem length_numeral (n : Nat) : (numeral n).length = 3 := rfl

/-- A blob without the two long beginnings is read by its first three bytes. -/
theorem sniff_of_neither {blob : Bytes} (hsalted : ¬ Salted.marker <+: blob)
    (hencoded : ¬ encodedMarker <+: blob) :
    sniff blob = if blob.length < 3 then .error (.malformed .shorterThanMarker)
      else if (blob.take 3).all isDigit then
        Version.ofRequest (.ofInt (markerNumber (blob.take 3)))
      else .error (.invalidMarker (blob.take 3)) := by
  have hsalted' : blob.take 8 ≠ Salted.marker := by
    intro h
    exact hsalted (h ▸ List.take_prefix 8 blob)
  have hencoded' : blob.take 8 ≠ encodedMarker := by
    intro h
    exact hencoded (h ▸ List.take_prefix 8 blob)
  rw [sniff]
  simp only [if_neg hsalted', if_neg hencoded']

/-- What begins with a digit has neither of the two long beginnings. -/
theorem not_prefix_of_digit {b : UInt8} {rest blob : Bytes} (hb : isDigit b = true)
    (hblob : b :: rest <+: blob) : ¬ Salted.marker <+: blob ∧ ¬ encodedMarker <+: blob := by
  obtain ⟨more, rfl⟩ := hblob
  constructor
  · intro h
    have hhead : Salted.marker.head? = some b := by
      rw [List.prefix_iff_eq_take.mp h]
      rfl
    have hb' : b = 83 := (Option.some.inj hhead).symm
    rw [hb'] at hb
    exact absurd hb (by decide)
  · intro h
    have hhead : encodedMarker.head? = some b := by
      rw [List.prefix_iff_eq_take.mp h]
      rfl
    have hb' : b = 85 := (Option.some.inj hhead).symm
    rw [hb'] at hb
    exact absurd hb (by decide)

theorem sniff_of_numeral {n : Nat} (hn : n < 1000) {blob : Bytes} (h : numeral n <+: blob) :
    sniff blob = Version.ofRequest (.ofInt n) := by
  have hfirst := (digit_spec (n / 100) (by omega)).1
  obtain ⟨hsalted, hencoded⟩ := not_prefix_of_digit hfirst h
  have hlong : ¬ blob.length < 3 := by
    have hlength := h.length_le
    rw [length_numeral] at hlength
    omega
  have hmarker : blob.take 3 = numeral n := (List.prefix_iff_eq_take.mp h).symm
  rw [sniff_of_neither hsalted hencoded, if_neg hlong, hmarker,
    if_pos (all_isDigit_numeral hn), markerNumber_numeral hn]

theorem ofRequest_of_ne {n : Nat} (hone : n ≠ 1) (htwo : n ≠ 2) :
    Version.ofRequest (.ofInt n) = .error (.unsupportedVersion (toString n)) := by
  have hone' : (RequestedVersion.ofInt n).number? ≠ some 1 := by
    intro h
    have hn : (n : Int) = 1 := Option.some.inj h
    omega
  have htwo' : (RequestedVersion.ofInt n).number? ≠ some 2 := by
    intro h
    have hn : (n : Int) = 2 := Option.some.inj h
    omega
  rw [Version.ofRequest, if_neg hone', if_neg htwo']
  rfl

theorem sniff_of_short {blob : Bytes} (h : blob.length < 3) :
    sniff blob = .error (.malformed .shorterThanMarker) := by
  have hsalted : ¬ Salted.marker <+: blob := by
    intro hprefix
    have hlength : 8 ≤ blob.length := hprefix.length_le
    omega
  have hencoded : ¬ encodedMarker <+: blob := by
    intro hprefix
    have hlength : 8 ≤ blob.length := hprefix.length_le
    omega
  rw [sniff_of_neither hsalted hencoded, if_pos h]

/-- The beginning of a blob settles what is read off it. -/
theorem sniff_of_opens {blob : Bytes} {o : Opening} (h : o.Opens blob) :
    sniff blob = o.outcome := by
  cases o with
  | format v =>
    cases v with
    | cbc =>
      rcases h with ⟨rest, rfl⟩ | hnumeral
      · exact sniff_marker rest
      · exact sniff_of_numeral (n := 1) (by omega) hnumeral
    | gcm => exact sniff_of_numeral (n := 2) (by omega) h
  | number n =>
    obtain ⟨hn, hone, htwo, hnumeral⟩ := h
    rw [sniff_of_numeral hn hnumeral, ofRequest_of_ne hone htwo]
    rfl
  | encoded =>
    obtain ⟨rest, rfl⟩ := h
    exact sniff_encodedMarker rest
  | short => exact sniff_of_short h
  | unmarked marker =>
    obtain ⟨hlength, hmarker, hnumeral, hsalted, hencoded⟩ := h
    have hlong : ¬ blob.length < 3 := by
      have hle := hmarker.length_le
      omega
    have htake : blob.take 3 = marker := by
      rw [List.prefix_iff_eq_take.mp hmarker, hlength]
    have hdigits : ¬ marker.all isDigit = true := by
      intro hall
      obtain ⟨n, hn, heq⟩ := exists_numeral hlength hall
      exact hnumeral n hn heq
    rw [sniff_of_neither hsalted hencoded, if_neg hlong, htake, if_neg hdigits]
    rfl

/-- Every blob begins in one of the ways. -/
theorem exists_opens (blob : Bytes) : ∃ o : Opening, o.Opens blob := by
  by_cases hshort : blob.length < 3
  · exact ⟨.short, hshort⟩
  by_cases hsalted : Salted.marker <+: blob
  · exact ⟨.format .cbc, Or.inl hsalted⟩
  by_cases hencoded : encodedMarker <+: blob
  · exact ⟨.encoded, hencoded⟩
  have hlength : (blob.take 3).length = 3 := by
    rw [List.length_take]
    omega
  have hmarker : blob.take 3 <+: blob := List.take_prefix 3 blob
  by_cases hnumeral : ∃ n < 1000, numeral n = blob.take 3
  · obtain ⟨n, hn, heq⟩ := hnumeral
    rw [← heq] at hmarker
    by_cases hone : n = 1
    · exact ⟨.format .cbc, Or.inr (hone ▸ hmarker)⟩
    by_cases htwo : n = 2
    · exact ⟨.format .gcm, show numeral 2 <+: blob from htwo ▸ hmarker⟩
    · exact ⟨.number n, hn, hone, htwo, hmarker⟩
  · refine ⟨.unmarked (blob.take 3), hlength, hmarker, ?_, hsalted, hencoded⟩
    intro n hn heq
    exact hnumeral ⟨n, hn, heq⟩

theorem eq_of_toString_eq {m n : Nat} (h : toString m = toString n) : m = n := by
  have hdigits : Nat.toDigits 10 m = Nat.toDigits 10 n := by
    rw [← Nat.toList_repr, ← Nat.toList_repr]
    exact congrArg String.toList h
  calc m = Nat.ofDigitChars 10 (Nat.toDigits 10 m) 0 := Nat.ofDigitChars_ten_toDigits.symm
    _ = Nat.ofDigitChars 10 (Nat.toDigits 10 n) 0 := by rw [hdigits]
    _ = n := Nat.ofDigitChars_ten_toDigits

/-- No two ways of beginning lead to one outcome. -/
theorem outcome_injective : Function.Injective Opening.outcome := by
  intro o o' h
  cases o <;> cases o' <;>
    simp only [Opening.outcome, reduceCtorEq, Except.ok.injEq, Except.error.injEq,
      Failure.malformed.injEq, Failure.invalidMarker.injEq,
      Failure.unsupportedVersion.injEq] at h
  case format.format v v' => rw [h]
  case number.number n n' => rw [eq_of_toString_eq h]
  case encoded.encoded => rfl
  case short.short => rfl
  case unmarked.unmarked marker marker' => rw [h]

/-- What is read off a blob settles its beginning. -/
theorem sniff_eq_outcome_iff {blob : Bytes} {o : Opening} :
    sniff blob = o.outcome ↔ o.Opens blob := by
  constructor
  · intro h
    obtain ⟨o', ho'⟩ := exists_opens blob
    have houtcome : o.outcome = o'.outcome := h.symm.trans (sniff_of_opens ho')
    rwa [outcome_injective houtcome]
  · exact sniff_of_opens

theorem existsUnique_opens (blob : Bytes) : ∃! o : Opening, o.Opens blob := by
  obtain ⟨o, ho⟩ := exists_opens blob
  refine ⟨o, ho, ?_⟩
  intro o' ho'
  exact outcome_injective ((sniff_of_opens ho').symm.trans (sniff_of_opens ho))

/-- Nothing behind the first eight bytes of a blob is looked at. -/
theorem sniff_congr_take {blob blob' : Bytes} (h : blob'.take 8 = blob.take 8) :
    sniff blob' = sniff blob := by
  have hlength : blob'.length < 3 ↔ blob.length < 3 := by
    have hsame := congrArg List.length h
    rw [List.length_take, List.length_take] at hsame
    omega
  have hmarker : blob'.take 3 = blob.take 3 := by
    have hsame := congrArg (List.take 3) h
    rwa [List.take_take, List.take_take] at hsame
  simp only [sniff, h, hlength, hmarker]

/-- A byte is shown in messages as its ASCII character, or as the replacement character. -/
def ShownAs (b : UInt8) (c : Char) : Prop :=
  (b < 128 → c.toNat = b.toNat) ∧ (128 ≤ b → c = '\uFFFD')

theorem shownAs_of_lossy (b : UInt8) :
    ShownAs b (if b < 128 then Char.ofNat b.toNat else '\uFFFD') := by
  constructor
  · intro h
    rw [if_pos h, Utf8.toNat_char b]
  · intro h
    rw [if_neg (UInt8.not_lt.mpr h)]

theorem exists_message_of_invalidMarker (marker : Bytes) :
    ∃ shown, (Failure.invalidMarker marker).message? =
        some ("Invalid metadata version: " ++ String.ofList shown) ∧
      List.Forall₂ ShownAs marker shown := by
  refine ⟨_, rfl, ?_⟩
  rw [List.forall₂_map_right_iff, List.forall₂_same]
  intro b _
  exact shownAs_of_lossy b

/-- Only the text form of a blob of the first format begins like an encoded blob. -/
theorem encodedMarker_prefix_textBytes_iff (v : Version) (key : Secret) (salt : Option Bytes)
    (r : RandomSource) (text : Bytes) :
    encodedMarker <+: textBytes v (blobOf v key salt r text) ↔ v = .cbc := by
  cases v with
  | cbc =>
    obtain ⟨rest, hrest⟩ := marker_prefix_blobOf key salt r text
    rw [textBytes, ← hrest, encode_marker]
    exact ⟨fun _ => rfl, fun _ => List.prefix_append _ _⟩
  | gcm =>
    constructor
    · intro h
      have hdigit : isDigit 48 = true := by decide
      have hblob : 48 :: [48, 50] <+: blobOf .gcm key salt r text := List.prefix_append _ _
      exact absurd h (not_prefix_of_digit hdigit hblob).2
    · intro h
      cases h

/-- A blob begins in exactly one way, and what is read off it and its beginning settle each other;
nothing behind its first eight bytes counts, and three bytes that are no number are shown in the
message. What encryption writes is read off as the version that was asked for, and its text form
begins like an encoded blob in the first version only. -/
theorem opening_decides_format :
    (∀ blob : Bytes, (∃! o : Opening, o.Opens blob) ∧
      ∀ o : Opening, sniff blob = o.outcome ↔ o.Opens blob) ∧
    (∀ marker : Bytes, ∃ shown, (Failure.invalidMarker marker).message? =
        some ("Invalid metadata version: " ++ String.ofList shown) ∧
      List.Forall₂ ShownAs marker shown) ∧
    (∀ blob blob' : Bytes, blob'.take 8 = blob.take 8 → sniff blob' = sniff blob) ∧
    (∀ (requested : RequestedVersion) (v : Version), Version.ofRequest requested = .ok v →
      (∀ (text : Bytes) (key : Secret) (salt : Option Bytes) (r : RandomSource),
        ∃ blob, ((encrypt text key requested salt).run r).result = .ok blob ∧
          sniff blob = .ok v) ∧
      (∀ (text key : Secret) (r : RandomSource),
        ∃ field, ((encryptText text key requested).run r).result = .ok field ∧
          ("U2FsdGVk".toList <+: field.toList ↔ v = .cbc))) := by
  refine ⟨?_, exists_message_of_invalidMarker, ?_, ?_⟩
  · intro blob
    exact ⟨existsUnique_opens blob, fun o => sniff_eq_outcome_iff⟩
  · intro blob blob' h
    exact sniff_congr_take h
  · intro requested v hv
    constructor
    · intro text key salt r
      exact ⟨_, result_encrypt hv text key salt r, sniff_blobOf v key salt r text⟩
    · intro text key r
      obtain ⟨field, hfield, -, hchars⟩ :=
        exists_textForm_of_textBytes v key none r text.content
      have hmarker : "U2FsdGVk".toList = encodedMarker.map fun b => Char.ofNat b.toNat := by
        decide
      refine ⟨field, ?_, ?_⟩
      · rw [result_encryptText hv, hfield]
      · rw [hmarker, hchars, List.prefix_map_iff_of_injective Utf8.char_injective]
        exact encodedMarker_prefix_textBytes_iff v key none r text.content

/-- The number `078`; two digits and a byte that is not ASCII; the first version with other bytes
behind the first eight; and an encryption in each version. -/
theorem openings_of_five_blobs :
    (Opening.number 78).Opens [48, 55, 56, 83] ∧
      sniff [48, 55, 56, 83] = .error (.unsupportedVersion "78") ∧
    (∃! o : Opening, o.Opens [48, 50, 200]) ∧
      sniff [48, 50, 200] = .error (.invalidMarker [48, 50, 200]) ∧
      (Opening.unmarked [48, 50, 200]).Opens [48, 50, 200] ∧
      (Failure.invalidMarker [48, 50, 200]).message? =
        some "Invalid metadata version: 02\uFFFD" ∧
    sniff (numeral 1 ++ [1, 2, 3, 4, 5, 6]) = sniff (numeral 1 ++ [1, 2, 3, 4, 5, 7, 8]) ∧
    (Version.ofRequest (.ofInt 1) = .ok .cbc ∧
      ∃ blob, ((encrypt [] (.text "key") (.ofInt 1) (some [7])).run (.cycle [7])).result =
          .ok blob ∧
        sniff blob = .ok .cbc) ∧
    (Version.ofRequest (.ofInt 2) = .ok .gcm ∧
      ∃ field, ((encryptText (.text "") (.text "key") (.ofInt 2)).run (.cycle [7])).result =
          .ok field ∧
        ("U2FsdGVk".toList <+: field.toList ↔ Version.gcm = .cbc)) := by
  obtain ⟨hopenings, -, htake, hversions⟩ := opening_decides_format
  have hnumber : (Opening.number 78).Opens [48, 55, 56, 83] := by
    refine ⟨by decide, by decide, by decide, ?_⟩
    exact ⟨[83], rfl⟩
  have hunmarked : sniff [48, 50, 200] = (Opening.unmarked [48, 50, 200]).outcome := by rfl
  refine ⟨hnumber, ?_, ?_, hunmarked, ?_, by decide, ?_, ⟨rfl, ?_⟩, ⟨rfl, ?_⟩⟩
  · exact ((hopenings _).2 _).mpr hnumber
  · exact (hopenings [48, 50, 200]).1
  · exact ((hopenings _).2 _).mp hunmarked
  · exact htake _ _ rfl
  · exact (hversions (.ofInt 1) .cbc rfl).1 [] (.text "key") (some [7]) (.cycle [7])
  · exact (hversions (.ofInt 2) .gcm rfl).2 (.text "") (.text "key") (.cycle [7])

end SealedMetadata.Blob
