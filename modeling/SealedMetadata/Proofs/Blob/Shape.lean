import Mathlib.Algebra.Order.Floor.Div
import Mathlib.GroupTheory.GroupAction.Ring
import SealedMetadata.Proofs.Blob.Openings
import SealedMetadata.Proofs.Bytes.CanonicalBase64
import SealedMetadata.Proofs.Random.Counts

/-!
The shape of what an encryption writes. Its length follows from the version and the length of the
text alone, its bytes are of known kinds at known places, and neither form of it is ever taken for
the other version.
-/

namespace SealedMetadata

/-- The ASCII letters and digits. -/
def Alphanumeric.IsLetterOrDigit (b : UInt8) : Prop :=
  (97 ≤ b ∧ b ≤ 122) ∨ (65 ≤ b ∧ b ≤ 90) ∨ (48 ≤ b ∧ b ≤ 57)

theorem Alphanumeric.isLetterOrDigit_pick (b : UInt8) : IsLetterOrDigit (pick b) := by
  unfold IsLetterOrDigit
  revert b
  apply forall_byte
  decide +kernel

namespace Blob

/-- How many bytes the blob of a text of `n` bytes has. -/
def blobSize : Version → Nat → Nat
  | .cbc, n => 16 + 16 * (n / 16 + 1)
  | .gcm, n => 15 + 4 * ((n + 16) ⌈/⌉ 3)

/-- How many characters its text form has. -/
def fieldSize (v : Version) (n : Nat) : Nat :=
  match v with
  | .cbc => 4 * (blobSize .cbc n ⌈/⌉ 3)
  | .gcm => blobSize .gcm n

/-- A blob of the first format and its text form. -/
structure Salted.Shape (blob : Bytes) (field : String) : Prop where
  marker : Salted.marker <+: blob
  canonical : Base64.Canonical (Utf8.encode field)
  decoded : Base64.decode? (Utf8.encode field) = some blob
  beginning : "U2FsdGVkX1".toList <+: field.toList

/-- The salt in a blob, and the random source after it. It is the caller's salt if that has eight
bytes, and nothing is drawn then. With any other one, or none, it is the next eight bytes of the
source. -/
structure Salted.SaltTaken (salt : Option Bytes) (r after : RandomSource) (blob : Bytes) :
    Prop where
  given_iff : ∀ s ∈ salt, ((blob.drop 8).take 8 = s ↔ s.length = 8)
  untouched : ∀ s ∈ salt, s.length = 8 → after = r
  drawn : (∀ s ∈ salt, s.length ≠ 8) →
    (blob.drop 8).take 8 = r.peek 8 ∧ after = r.advance 8

/-- A blob of the second format, which is its own text form. -/
structure Authenticated.Shape (blob : Bytes) (field : String) : Prop where
  marker : numeral 2 <+: blob
  nonce : ∀ b ∈ (blob.drop 3).take 12, Alphanumeric.IsLetterOrDigit b
  body : Base64.Canonical (blob.drop 15)
  ascii : ∀ b ∈ blob, b < 128
  same : Utf8.encode field = blob

/-- A field is read as a blob of a format, as it is or once its base64 is undone. -/
def ReadableAs (v : Version) (field : Bytes) : Prop :=
  sniff field = .ok v ∨ ∃ blob, ofField field = .ok blob ∧ sniff blob = .ok v

/-- A blob of a text of `n` bytes and its text form. -/
structure Shape (v : Version) (n : Nat) (blob : Bytes) (field : String) : Prop where
  form : textForm v blob = .ok field
  blob_length : blob.length = blobSize v n
  field_length : field.length = fieldSize v n
  salted : v = .cbc → Salted.Shape blob field
  authenticated : v = .gcm → Authenticated.Shape blob field
  blob_read : ∀ v', ReadableAs v' blob ↔ v' = v
  field_read : ∀ v', ReadableAs v' (Utf8.encode field) ↔ v' = v

theorem length_encode_ceilDiv (b : Bytes) : (Base64.encode b).length = 4 * (b.length ⌈/⌉ 3) := by
  rw [Base64.length_encode, Nat.ceilDiv_eq_add_pred_div]
  rfl

theorem length_blobOf (v : Version) (key : Secret) (salt : Option Bytes) (r : RandomSource)
    (text : Bytes) : (blobOf v key salt r text).length = blobSize v text.length := by
  cases v with
  | cbc =>
    have hmarker : Salted.marker.length = 8 := rfl
    have hsalt : (Salted.saltOf salt r).length = 8 := Salted.length_saltOf salt r
    rw [blobOf, Salted.encryptWith]
    simp only [List.length_append, Cbc.length_encrypt, hmarker, hsalt, blobSize]
  | gcm =>
    have hmarker : Version.gcm.marker.length = 3 := rfl
    have hnonce : (Authenticated.nonceOf r).length = 12 := Authenticated.length_nonceOf r
    rw [blobOf, Authenticated.encryptWith]
    simp only [List.length_append, length_encode_ceilDiv, Gcm.length_encrypt _ hnonce, hmarker,
      hnonce, blobSize]
    omega

theorem length_textBytes (v : Version) (key : Secret) (salt : Option Bytes) (r : RandomSource)
    (text : Bytes) :
    (textBytes v (blobOf v key salt r text)).length = fieldSize v text.length := by
  cases v with
  | cbc => rw [textBytes, length_encode_ceilDiv, length_blobOf, fieldSize]
  | gcm => rw [textBytes, length_blobOf, fieldSize]

/-- The last two bytes of the marker begin a group, and settle two symbols of it. -/
theorem prefix_encode_underscores (rest : Bytes) :
    [88, 49] <+: Base64.encode (Salted.marker.drop 6 ++ rest) := by
  cases rest with
  | nil => decide
  | cons c rest => exact ⟨_, rfl⟩

theorem beginning_encode {blob : Bytes} (h : Salted.marker <+: blob) :
    encodedMarker ++ [88, 49] <+: Base64.encode blob := by
  obtain ⟨rest, rfl⟩ := h
  rw [encode_marker, List.prefix_append_right_inj]
  exact prefix_encode_underscores rest

theorem salt_blobOf (key : Secret) (salt : Option Bytes) (r : RandomSource) (text : Bytes) :
    ((blobOf .cbc key salt r text).drop 8).take 8 = Salted.saltOf salt r := by
  have hmarker : Salted.marker.length = 8 := rfl
  have hsalt : (Salted.saltOf salt r).length = 8 := Salted.length_saltOf salt r
  rw [blobOf, Salted.encryptWith, List.append_assoc, List.drop_left' hmarker,
    List.take_left' hsalt]

theorem saltTaken_blobOf {requested : RequestedVersion}
    (hv : Version.ofRequest requested = .ok .cbc) (text : Bytes) (key : Secret)
    (salt : Option Bytes) (r : RandomSource) :
    Salted.SaltTaken salt r ((encrypt text key requested salt).run r).source
      (blobOf .cbc key salt r text) := by
  have hplace := salt_blobOf key salt r text
  have hsource := (draws_encrypt text key requested salt).source r
  rw [drawn, hv] at hsource
  constructor
  · rintro s rfl
    rw [hplace]
    constructor
    · -- what stands in the blob has eight bytes in any case
      intro h
      rw [← h]
      exact Salted.length_saltOf (some s) r
    · intro h
      exact if_pos h
  · rintro s rfl h
    have hnone : Salted.drawn (some s) = 0 := if_pos (congrArg some h)
    rw [hsource, hnone, RandomSource.advance_zero]
  · intro h
    have hlength : salt.map List.length ≠ some Salted.saltLength := by
      intro hsome
      obtain ⟨s, hs, heq⟩ := Option.map_eq_some_iff.mp hsome
      exact h s hs heq
    have height : Salted.drawn salt = 8 := if_neg hlength
    refine ⟨?_, by rw [hsource, height]⟩
    rw [hplace]
    cases salt with
    | none => rfl
    | some s => exact if_neg (h s rfl)

/-- A salt of the wrong length is never looked at. -/
theorem encrypt_of_wrong_salt (text : Bytes) (key : Secret) (requested : RequestedVersion)
    {s : Bytes} (hs : s.length ≠ 8) :
    encrypt text key requested (some s) = encrypt text key requested none := by
  have hlength : ¬ s.length = Salted.saltLength := hs
  have hsalted : Salted.encrypt key (some s) text = Salted.encrypt key none text := by
    simp only [Salted.encrypt_eq, Salted.chooseSalt, if_neg hlength]
  rw [encrypt_eq, encrypt_eq, hsalted]

theorem authenticatedShape_blobOf (key : Secret) (salt : Option Bytes) (r : RandomSource)
    (text : Bytes) {field : String}
    (hfield : Utf8.encode field = blobOf .gcm key salt r text) :
    Authenticated.Shape (blobOf .gcm key salt r text) field := by
  have hnonce : (Authenticated.nonceOf r).length = 12 := Authenticated.length_nonceOf r
  have hblob : blobOf .gcm key salt r text = numeral 2 ++ (Authenticated.nonceOf r ++
      Base64.encode (Gcm.encrypt (Authenticated.cipherKey key) (Authenticated.nonceOf r) text)) :=
    rfl
  -- both parts behind the marker are found from here
  have hdrop : (blobOf .gcm key salt r text).drop 3 = Authenticated.nonceOf r ++
      Base64.encode (Gcm.encrypt (Authenticated.cipherKey key) (Authenticated.nonceOf r) text) := by
    rw [hblob]
    exact List.drop_left' (length_numeral 2)
  refine ⟨?_, ?_, ?_, gcm_blobOf_lt key salt r text, hfield⟩
  · rw [hblob]
    exact List.prefix_append _ _
  · intro b hb
    rw [hdrop, List.take_left' hnonce] at hb
    obtain ⟨c, -, rfl⟩ := List.mem_map.mp hb
    exact Alphanumeric.isLetterOrDigit_pick c
  · have hbody : (blobOf .gcm key salt r text).drop 15 =
        ((blobOf .gcm key salt r text).drop 3).drop 12 := by
      rw [List.drop_drop]
    rw [hbody, hdrop, List.drop_left' hnonce]
    exact Base64.canonical_encode _

/-- A field from which one blob comes is read as the format of that blob, unless it is a blob of
another format itself. -/
theorem readableAs_iff {field blob : Bytes} {v : Version} (hblob : ofField field = .ok blob)
    (hsniff : sniff blob = .ok v) (hfield : ∀ v', sniff field = .ok v' → v' = v) (v' : Version) :
    ReadableAs v' field ↔ v' = v := by
  constructor
  · rintro (h | ⟨blob', hblob', h⟩)
    · exact hfield v' h
    · -- there is one blob in a field
      rw [hblob] at hblob'
      rw [← Except.ok.inj hblob', hsniff] at h
      exact (Except.ok.inj h).symm
  · rintro rfl
    exact Or.inr ⟨blob, hblob, hsniff⟩

theorem readableAs_blobOf_iff (v : Version) (key : Secret) (salt : Option Bytes)
    (r : RandomSource) (text : Bytes) (v' : Version) :
    ReadableAs v' (blobOf v key salt r text) ↔ v' = v := by
  have hsniff := sniff_blobOf v key salt r text
  apply readableAs_iff (ofField_blobOf v key salt r text) hsniff
  intro v'' h
  exact (Except.ok.inj (hsniff.symm.trans h)).symm

theorem readableAs_textBytes_iff (v : Version) (key : Secret) (salt : Option Bytes)
    (r : RandomSource) (text : Bytes) (v' : Version) :
    ReadableAs v' (textBytes v (blobOf v key salt r text)) ↔ v' = v := by
  apply readableAs_iff (ofField_textBytes v key salt r text) (sniff_blobOf v key salt r text)
  intro v'' h
  cases v with
  | cbc =>
    -- as a blob, the text form is refused in every version
    obtain ⟨rest, hrest⟩ := marker_prefix_blobOf key salt r text
    have hrefused : sniff (Base64.encode (blobOf .cbc key salt r text)) =
        .error (.malformed .encodedTwice) := by
      rw [← hrest, encode_marker, sniff_encodedMarker]
    cases hrefused.symm.trans h
  | gcm =>
    have hsniff := sniff_blobOf .gcm key salt r text
    exact (Except.ok.inj (hsniff.symm.trans h)).symm

/-- What an encryption writes has the shape of its version and of the length of the text. -/
theorem exists_shape (v : Version) (key : Secret) (salt : Option Bytes) (r : RandomSource)
    (text : Bytes) : ∃ field, Shape v text.length (blobOf v key salt r text) field := by
  obtain ⟨field, hform, hbytes, hchars⟩ := exists_textForm_of_textBytes v key salt r text
  refine ⟨field, hform, length_blobOf v key salt r text, ?_, ?_, ?_,
    readableAs_blobOf_iff v key salt r text, ?_⟩
  · rw [← String.length_toList, hchars, List.length_map, length_textBytes]
  · rintro rfl
    have hmarker := marker_prefix_blobOf key salt r text
    have hbeginning : "U2FsdGVkX1".toList =
        (encodedMarker ++ [88, 49]).map fun b : UInt8 => Char.ofNat b.toNat := by
      decide
    refine ⟨hmarker, ?_, ?_, ?_⟩
    · rw [hbytes]
      exact Base64.canonical_encode _
    · rw [hbytes]
      exact Base64.decode?_encode _
    · rw [hbeginning, hchars, List.prefix_map_iff_of_injective Utf8.char_injective]
      exact beginning_encode hmarker
  · rintro rfl
    exact authenticatedShape_blobOf key salt r text hbytes
  · rw [hbytes]
    exact readableAs_textBytes_iff v key salt r text

/-- Two encryptions in one version, of texts of one length, have outputs of one length. -/
theorem same_lengths {requested requested' : RequestedVersion} {v : Version}
    (hv : Version.ofRequest requested = .ok v) (hv' : Version.ofRequest requested' = .ok v)
    {text text' : Secret} (hlength : text'.content.length = text.content.length)
    (key key' : Secret) (salt salt' : Option Bytes) (r r' : RandomSource) :
    ((encrypt text'.content key' requested' salt').run r').result.map List.length =
        ((encrypt text.content key requested salt).run r).result.map List.length ∧
      ((encryptText text' key' requested').run r').result.map String.length =
        ((encryptText text key requested).run r).result.map String.length := by
  have hblob (text key : Secret) (salt : Option Bytes) (r : RandomSource) {requested}
      (hv : Version.ofRequest requested = .ok v) :
      ((encrypt text.content key requested salt).run r).result.map List.length =
        .ok (blobSize v text.content.length) := by
    rw [result_encrypt hv, Except.map, length_blobOf]
  have hfield (text key : Secret) (r : RandomSource) {requested}
      (hv : Version.ofRequest requested = .ok v) :
      ((encryptText text key requested).run r).result.map String.length =
        .ok (fieldSize v text.content.length) := by
    obtain ⟨field, hshape⟩ := exists_shape v key none r text.content
    rw [result_encryptText hv, hshape.form, Except.map, hshape.field_length]
  rw [hblob text' key' salt' r' hv', hblob text key salt r hv, hfield text' key' r' hv',
    hfield text key r hv, hlength]
  exact ⟨rfl, rfl⟩

/-- Whatever the key, the salt and the source, an encryption in a supported version writes what has
the shape of that version and of the length of the text, so that its length tells nothing else. In
the first version the salt is the caller's exactly if that one has eight bytes, and a salt of
another length is never looked at. -/
theorem shape_of_version_and_length :
    (∀ (requested : RequestedVersion) (v : Version), Version.ofRequest requested = .ok v →
      ∀ (text key : Secret) (salt : Option Bytes) (r : RandomSource), ∃ blob field,
        ((encrypt text.content key requested salt).run r).result = .ok blob ∧
        Shape v text.content.length blob field ∧
        (salt = none → ((encryptText text key requested).run r).result = .ok field) ∧
        (v = .cbc → Salted.SaltTaken salt r
          ((encrypt text.content key requested salt).run r).source blob)) ∧
    (∀ (requested requested' : RequestedVersion) (v : Version),
      Version.ofRequest requested = .ok v → Version.ofRequest requested' = .ok v →
      ∀ text text' : Secret, text'.content.length = text.content.length →
      ∀ (key key' : Secret) (salt salt' : Option Bytes) (r r' : RandomSource),
        ((encrypt text'.content key' requested' salt').run r').result.map List.length =
          ((encrypt text.content key requested salt).run r).result.map List.length ∧
        ((encryptText text' key' requested').run r').result.map String.length =
          ((encryptText text key requested).run r).result.map String.length) ∧
    (∀ (text : Bytes) (key : Secret) (requested : RequestedVersion) (s : Bytes), s.length ≠ 8 →
      encrypt text key requested (some s) = encrypt text key requested none) := by
  refine ⟨?_, ?_, ?_⟩
  · intro requested v hv text key salt r
    obtain ⟨field, hshape⟩ := exists_shape v key salt r text.content
    refine ⟨blobOf v key salt r text.content, field, ?_, hshape, ?_, ?_⟩
    · exact result_encrypt hv text.content key salt r
    · rintro rfl
      rw [result_encryptText hv, hshape.form]
    · rintro rfl
      exact saltTaken_blobOf hv text.content key salt r
  · intro requested requested' v hv hv' text text' hlength key key' salt salt' r r'
    exact same_lengths hv hv' hlength key key' salt salt' r r'
  · intro text key requested s hs
    exact encrypt_of_wrong_salt text key requested hs

/-- A text of one whole block under a salt of three bytes; texts of five letters and of five bytes
in the second version; and an empty salt. -/
theorem shapes_of_short_texts :
    (Version.ofRequest (.ofInt 1) = .ok .cbc ∧ ∃ blob field,
      ((encrypt (Secret.bytes (List.replicate 16 0)).content (.text "key") (.ofInt 1)
        (some [1, 2, 3])).run (.cycle [7])).result = .ok blob ∧
      Shape .cbc 16 blob field ∧
      Salted.SaltTaken (some [1, 2, 3]) (.cycle [7])
        ((encrypt (Secret.bytes (List.replicate 16 0)).content (.text "key") (.ofInt 1)
          (some [1, 2, 3])).run (.cycle [7])).source blob) ∧
    (Version.ofRequest (.ofInt 2) = .ok .gcm ∧
      (Secret.bytes [255, 0, 255, 0, 255]).content.length = (Secret.text "hello").content.length ∧
      ((encryptText (.bytes [255, 0, 255, 0, 255]) (.text "") (.ofInt 2)).run
          (.cycle [1, 2])).result.map String.length =
        ((encryptText (.text "hello") (.text "key") (.ofInt 2)).run
          (.cycle [7])).result.map String.length) ∧
    (([] : Bytes).length ≠ 8 ∧
      encrypt [104, 105] (.text "key") (.ofInt 1) (some []) =
        encrypt [104, 105] (.text "key") (.ofInt 1) none) := by
  obtain ⟨hshape, hsame, hsalt⟩ := shape_of_version_and_length
  refine ⟨⟨rfl, ?_⟩, ⟨rfl, by decide, ?_⟩, ⟨by decide, ?_⟩⟩
  · obtain ⟨blob, field, hblob, hshape, -, htaken⟩ := hshape (.ofInt 1) .cbc rfl
      (.bytes (List.replicate 16 0)) (.text "key") (some [1, 2, 3]) (.cycle [7])
    exact ⟨blob, field, hblob, hshape, htaken rfl⟩
  · exact (hsame (.ofInt 2) (.ofInt 2) .gcm rfl rfl (.text "hello")
      (.bytes [255, 0, 255, 0, 255]) (by decide) (.text "key") (.text "") none none
      (.cycle [7]) (.cycle [1, 2])).2
  · exact hsalt [104, 105] (.text "key") (.ofInt 1) [] (by decide)

end Blob

end SealedMetadata
