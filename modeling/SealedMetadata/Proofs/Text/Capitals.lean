import Mathlib.Data.List.Basic
import SealedMetadata.Proofs.Text.Numeral
import SealedMetadata.Text.Capitals

/-!
Capitals beside other ways to write a text in upper case. As far as a result is ASCII, all of them
agree. A digit of any script is its own capital, so no number has letters only for its capitals.
-/

namespace SealedMetadata.Text

/-- ASCII characters only. -/
def IsAscii (cs : List Char) : Prop := ∀ c ∈ cs, c.toNat < 128

/-- An upper-casing that turns the same characters into ASCII ones as the capitals do, and into
the same ones. What it makes of all other characters is left open. -/
def IsUpperCasing (upper : Char → List Char) : Prop :=
  ∀ c, IsAscii (upper c) ∨ IsAscii (capital c) → upper c = capital c

theorem isUpperCasing_capital : IsUpperCasing capital := fun _ _ => rfl

section UpperCasing

variable {upper : Char → List Char} {cs t : List Char}

theorem isAscii_of_flatMap {f : Char → List Char} (ht : IsAscii t) (h : cs.flatMap f = t) :
    ∀ c ∈ cs, IsAscii (f c) := by
  intro c hc d hd
  apply ht
  rw [← h]
  exact List.mem_flatMap.mpr ⟨c, hc, hd⟩

/-- A text has an ASCII text for its upper case exactly if it has that for its capitals. -/
theorem flatMap_upper_eq_iff (hupper : IsUpperCasing upper) (ht : IsAscii t) :
    cs.flatMap upper = t ↔ cs.flatMap capital = t := by
  constructor
  · intro h
    have hsame : cs.flatMap upper = cs.flatMap capital :=
      List.flatMap_congr fun c hc => hupper c (Or.inl (isAscii_of_flatMap ht h c hc))
    rw [← hsame, h]
  · intro h
    have hsame : cs.flatMap upper = cs.flatMap capital :=
      List.flatMap_congr fun c hc => hupper c (Or.inr (isAscii_of_flatMap ht h c hc))
    rw [hsame, h]

end UpperCasing

theorem toUpper_of_not_lower {c : Char} (h : ¬(97 ≤ c.toNat ∧ c.toNat ≤ 122)) :
    c.toUpper = c := by
  apply dif_neg
  rintro ⟨hlow, hhigh⟩
  exact h ⟨hlow, hhigh⟩

/-- A digit of any script is its own capital. -/
theorem capital_of_decimal {c : Char} {d : Nat} (h : decimalValue? c = some d) :
    capital c = [c] := by
  obtain ⟨z, hz, hcode, hd⟩ := exists_of_decimalValue? h
  -- no digit stands among the letters that have other capitals
  have happart : ∀ z ∈ zeros, ∀ k < 10, ¬(97 ≤ z + k ∧ z + k ≤ 122) ∧
      z + k ∉ [0xdf, 0x131, 0x17f, 0xfb00, 0xfb01, 0xfb02, 0xfb03, 0xfb04, 0xfb05, 0xfb06] := by
    decide
  obtain ⟨hlower, hother⟩ := happart z hz d hd
  rw [← hcode] at hlower hother
  unfold capital
  split
  case h_11 => rw [toUpper_of_not_lower hlower]
  all_goals
    next hspecial =>
    rw [hspecial] at hother
    exact absurd (by decide) hother

theorem mem_flatMap_capital {cs : List Char} {c : Char} {d : Nat} (hc : c ∈ cs)
    (h : decimalValue? c = some d) : c ∈ cs.flatMap capital := by
  apply List.mem_flatMap.mpr
  refine ⟨c, hc, ?_⟩
  rw [capital_of_decimal h]
  exact List.mem_singleton_self c

/-- There is a digit in every numeral. -/
theorem IsNumeral.exists_digit {cs : List Char} {n : Int} (h : IsNumeral cs n) :
    ∃ c ∈ cs, ∃ d, decimalValue? c = some d := by
  obtain @⟨before, sign, row, after, ds, _, -, -, hrow, -, -⟩ := h
  obtain ⟨c, rest, d, hhead, hc⟩ := hrow.exists_head
  refine ⟨c, ?_, d, hc⟩
  rw [hhead]
  simp

end SealedMetadata.Text
