import Mathlib.Algebra.Group.Nat.Defs
import Mathlib.Data.List.TakeWhile
import SealedMetadata.Proofs.Text.Ascii
import SealedMetadata.Text.IntLiteral
import SealedMetadata.Text.Quoted

/-!
Hexadecimal text. It is made of sixteen digits, all of them ASCII, and the digits that a number is
written with are read as that number.
-/

namespace SealedMetadata

-- in a larger context the instance for all characters would be taken for this
theorem forall_mem_of_all {α : Type} {l : List α} {p : α → Prop} [DecidablePred p]
    (h : l.all (fun a => decide (p a)) = true) : ∀ a ∈ l, p a := by
  intro a ha
  exact of_decide_eq_true (List.all_eq_true.mp h a ha)

namespace Utf8

theorem toNat_toUInt8_of_lt {c : Char} (h : c.toNat < 128) : c.toNat.toUInt8.toNat = c.toNat := by
  simp only [Nat.toUInt8_eq, UInt8.toNat_ofNat']
  omega

theorem map_toUInt8_lt {cs : List Char} (h : ∀ c ∈ cs, c.toNat < 128) :
    ∀ x ∈ cs.map (fun c => c.toNat.toUInt8), x < 128 := by
  intro x hx
  obtain ⟨c, hc, rfl⟩ := List.mem_map.mp hx
  rw [UInt8.lt_iff_toNat_lt, toNat_toUInt8_of_lt (h c hc)]
  exact h c hc

/-- ASCII characters are their own bytes. -/
theorem encode_ofList_of_ascii {cs : List Char} (h : ∀ c ∈ cs, c.toNat < 128) :
    encode (String.ofList cs) = cs.map fun c => c.toNat.toUInt8 := by
  have hback : (cs.map fun c => c.toNat.toUInt8).map (fun x => Char.ofNat x.toNat) = cs := by
    rw [List.map_map]
    refine (List.map_congr_left fun c hc => ?_).trans (List.map_id cs)
    exact (congrArg Char.ofNat (toNat_toUInt8_of_lt (h c hc))).trans (Char.ofNat_toNat c)
  have hbytes := encode_ofList_of_lt (map_toUInt8_lt h)
  rwa [hback] at hbytes

theorem decodeAscii?_encode {s : String} (h : ∀ c ∈ s.toList, c.toNat < 128) :
    decodeAscii? (encode s) = some s := by
  have hlow := map_toUInt8_lt h
  rw [← encode_ofList_of_ascii h, String.ofList_toList] at hlow
  obtain ⟨t, ht, hsame⟩ := exists_decodeAscii? hlow
  -- a text is known from its bytes
  have hdecode := decode?_encode t
  rw [hsame, decode?_encode] at hdecode
  rw [ht, Option.some.inj hdecode]

end Utf8

namespace Hex

/-- The sixteen digits, in order. -/
def lowerDigits : List Char := "0123456789abcdef".toList

/-- A text of lower-case hexadecimal digits. -/
def IsLower (s : String) : Prop := ∀ c ∈ s.toList, c ∈ lowerDigits

theorem digit_mem_lowerDigits (n : UInt8) : n < 16 → digit n ∈ lowerDigits := by
  revert n
  apply forall_byte
  decide +kernel

/-- Both halves of a byte are below sixteen. -/
theorem halves_lt (b : UInt8) : b >>> 4 < 16 ∧ b &&& 15 < 16 := by
  revert b
  apply forall_byte
  decide +kernel

theorem isLower_encode (b : Bytes) : IsLower (encode b) := by
  intro c hc
  rw [encode, String.toList_ofList] at hc
  induction b with
  | nil => cases hc
  | cons x rest ih =>
    rcases List.mem_cons.mp hc with rfl | hc
    · exact digit_mem_lowerDigits _ (halves_lt x).1
    rcases List.mem_cons.mp hc with rfl | hc
    · exact digit_mem_lowerDigits _ (halves_lt x).2
    · exact ih hc

theorem IsLower.append {s t : String} (hs : IsLower s) (ht : IsLower t) : IsLower (s ++ t) := by
  intro c hc
  rw [String.toList_append, List.mem_append] at hc
  exact hc.elim (hs c) (ht c)

theorem toNat_lt_of_mem_lowerDigits : ∀ c ∈ lowerDigits, c.toNat < 128 :=
  forall_mem_of_all (by decide)

/-- The hexadecimal text of a byte string, as bytes. -/
theorem utf8_encode (b : Bytes) : Utf8.encode (encode b) = encodeBytes b := by
  refine Utf8.encode_ofList_of_ascii fun c hc => ?_
  have hlower := isLower_encode b
  rw [IsLower, encode, String.toList_ofList] at hlower
  exact toNat_lt_of_mem_lowerDigits c (hlower c hc)

theorem IsLower.decodeAscii?_encode {s : String} (h : IsLower s) :
    Utf8.decodeAscii? (Utf8.encode s) = some s :=
  Utf8.decodeAscii?_encode fun c hc => toNat_lt_of_mem_lowerDigits c (h c hc)

end Hex

namespace Text

theorem length_hexDigits (width n : Nat) : (hexDigits width n).length = width := by
  induction width generalizing n with
  | zero => rfl
  | succ width ih => rw [hexDigits, List.length_append, ih, List.length_singleton]

theorem mem_lowerDigits_of_mem_hexDigits {width n : Nat} {c : Char} (h : c ∈ hexDigits width n) :
    c ∈ Hex.lowerDigits := by
  induction width generalizing n with
  | zero => cases h
  | succ width ih =>
    rw [hexDigits, List.mem_append, List.mem_singleton] at h
    rcases h with hfront | rfl
    · exact ih hfront
    · have hlast : ∀ k < 16, Hex.digit k.toUInt8 ∈ Hex.lowerDigits := by decide
      exact hlast _ (Nat.mod_lt _ (by decide))

namespace IntLiteral

/-- A digit is read as its value. -/
theorem digit?_digit : ∀ k < 16, digit? 16 (Hex.digit k.toUInt8) = some k := by
  decide

/-- The digits of a number spell its remainder, since there are only so many. -/
theorem ofValues_hexDigits (width n : Nat) :
    ofValues 16 (values 16 (hexDigits width n)) = n % 16 ^ width := by
  induction width generalizing n with
  | zero => rw [Nat.pow_zero, Nat.mod_one]; rfl
  | succ width ih =>
    have hlast : values 16 [Hex.digit (n % 16).toUInt8] = [n % 16] := by
      rw [values, List.filterMap_cons, digit?_digit _ (Nat.mod_lt n (by decide))]
      rfl
    have hsplit : values 16 (hexDigits (width + 1) n) =
        values 16 (hexDigits width (n / 16)) ++ [n % 16] := by
      rw [← hlast, hexDigits, values, List.filterMap_append]
      rfl
    rw [hsplit, ofValues, List.foldl_append]
    have ih := ih (n / 16)
    rw [ofValues] at ih
    rw [ih]
    change 16 * (n / 16 % 16 ^ width) + n % 16 = n % 16 ^ (width + 1)
    rw [Nat.pow_succ', Nat.mod_mul]
    omega

section LowerDigits

variable {c : Char} {cs : List Char}

theorem inRow_of_mem : ∀ c ∈ Hex.lowerDigits, inRow 16 c = true :=
  forall_mem_of_all (by decide)

theorem not_isBlank_of_mem : ∀ c ∈ Hex.lowerDigits, isBlank c = false :=
  forall_mem_of_all (by decide)

theorem ne_of_mem : ∀ c ∈ Hex.lowerDigits, c ≠ '-' ∧ c ≠ '+' ∧ c ≠ '_' ∧ c ≠ 'x' ∧ c ≠ 'X' :=
  forall_mem_of_all (by decide)

theorem wellSeparated_of_ne (hne : cs ≠ []) (h : '_' ∉ cs) : wellSeparated cs = true := by
  induction cs with
  | nil => exact absurd rfl hne
  | cons c cs ih =>
    obtain ⟨hc, hcs⟩ := List.ne_and_not_mem_of_not_mem_cons h
    cases cs with
    | nil => simpa [wellSeparated] using hc.symm
    | cons d ds =>
      have hd := (List.ne_and_not_mem_of_not_mem_cons hcs).1
      have hstep : wellSeparated (c :: d :: ds) = (c ≠ '_' && wellSeparated (d :: ds)) := by
        rw [wellSeparated]
        · rintro ⟨⟩
        · rintro rest ⟨⟩
          exact hd rfl
      rw [hstep, ih (List.cons_ne_nil d ds) hcs]
      simpa using hc.symm

/-- Digits are read as what they spell: no sign, no mark and no blank is found in them. -/
theorem parseChars_of_lowerDigits (hne : cs ≠ []) (h : ∀ c ∈ cs, c ∈ Hex.lowerDigits) :
    parseChars 16 cs = .ok (ofValues 16 (values 16 cs)) := by
  have hrow : ∀ c ∈ cs, inRow 16 c = true := fun c hc => inRow_of_mem c (h c hc)
  have htake : cs.takeWhile (inRow 16) = cs := List.takeWhile_eq_self_iff.mpr hrow
  have hdrop : cs.dropWhile (inRow 16) = [] := List.dropWhile_eq_nil_iff.mpr hrow
  have hseparated : wellSeparated cs = true :=
    wellSeparated_of_ne hne fun hmem => (ne_of_mem _ (h _ hmem)).2.2.1 rfl
  have hblank : cs.dropWhile isBlank = cs := by
    cases cs with
    | nil => rfl
    | cons c rest =>
      rw [List.dropWhile_cons_of_neg]
      rw [not_isBlank_of_mem c (h c List.mem_cons_self)]
      exact Bool.false_ne_true
  have hsign : splitSign cs = (false, cs) := by
    cases cs with
    | nil => rfl
    | cons c rest =>
      obtain ⟨hminus, hplus, -⟩ := ne_of_mem c (h c List.mem_cons_self)
      rw [splitSign]
      · rintro _ ⟨⟩
        exact hminus rfl
      · rintro _ ⟨⟩
        exact hplus rfl
  have hmark : dropMark 16 cs = cs := by
    rcases cs with _ | ⟨zero, _ | ⟨x, rest⟩⟩
    · rfl
    · rfl
    · have hx := ne_of_mem x (h x (List.mem_cons_of_mem _ List.mem_cons_self))
      have hnone : ¬(16 = 16 ∧ decimalValue? zero = some 0 ∧ (x = 'x' ∨ x = 'X')) := by
        rintro ⟨-, -, rfl | rfl⟩
        · exact hx.2.2.2.1 rfl
        · exact hx.2.2.2.2 rfl
      exact if_neg hnone
  simp only [parseChars, hblank, hsign, hmark, htake, hdrop, hseparated]
  rfl

end LowerDigits

end IntLiteral

end Text

end SealedMetadata
