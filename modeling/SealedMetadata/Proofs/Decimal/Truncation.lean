import Mathlib.Data.Rat.Floor
import SealedMetadata.Decimal.Shortest

/-!
Floating-point numbers without their fractions: the whole number next to a finite number on the
side of zero.
-/

namespace SealedMetadata.Decimal

/-- The rational number that a magnitude is. -/
def Binary.toRat (b : Binary) : ℚ := b.mantissa * 2 ^ b.exponent

/-- The rational number that a finite number is. -/
def toRat (x : Float) : ℚ :=
  if Nat.pow 2 63 ≤ x.toBits.toNat then -(Binary.ofFloat x).toRat else (Binary.ofFloat x).toRat

/-- The whole number next to a rational one on the side of zero. -/
def IsTruncation (q : ℚ) (n : ℤ) : Prop := (0 ≤ q → n = ⌊q⌋) ∧ (q ≤ 0 → n = ⌈q⌉)

theorem Binary.toRat_nonneg (b : Binary) : 0 ≤ b.toRat := by
  have hpower : (0 : ℚ) ≤ 2 ^ b.exponent := zpow_nonneg (by norm_num) b.exponent
  exact mul_nonneg (Nat.cast_nonneg b.mantissa) hpower

/-- Only one of the two powers is other than one. -/
theorem Binary.toRat_eq_div (b : Binary) : b.toRat =
    ((b.mantissa * Nat.pow 2 b.exponent.toNat : ℕ) : ℚ) /
      ((Nat.pow 2 (-b.exponent).toNat : ℕ) : ℚ) := by
  have hexponent : b.exponent = (b.exponent.toNat : ℤ) - ((-b.exponent).toNat : ℤ) := by omega
  have hpower : (2 : ℚ) ^ b.exponent =
      (2 : ℚ) ^ b.exponent.toNat / (2 : ℚ) ^ (-b.exponent).toNat := by
    conv_lhs => rw [hexponent]
    rw [zpow_sub₀ (by norm_num), zpow_natCast, zpow_natCast]
  have hcast (k : ℕ) : ((Nat.pow 2 k : ℕ) : ℚ) = 2 ^ k := Nat.cast_pow 2 k
  rw [toRat, hpower, ← mul_div_assoc, Nat.cast_mul, hcast, hcast]

theorem Binary.floor_toRat (b : Binary) : ⌊b.toRat⌋ =
    ((b.mantissa * Nat.pow 2 b.exponent.toNat / Nat.pow 2 (-b.exponent).toNat : ℕ) : ℤ) := by
  rw [toRat_eq_div]
  exact Rat.floor_natCast_div_natCast _ _

/-- A fraction is dropped towards zero. -/
theorem truncate_isTruncation (x : Float) : IsTruncation (toRat x) (truncate x) := by
  have hnonneg := (Binary.ofFloat x).toRat_nonneg
  have hfloor := (Binary.ofFloat x).floor_toRat
  unfold truncate toRat
  dsimp only
  split
  -- the magnitude is rounded down, so a negative number is rounded up
  · rw [← hfloor]
    refine ⟨fun hzero => ?_, fun _ => (Int.ceil_neg).symm⟩
    have hnone : (Binary.ofFloat x).toRat = 0 := by linarith
    rw [hnone]
    norm_num
  · rw [← hfloor]
    refine ⟨fun _ => rfl, fun hzero => ?_⟩
    have hnone : (Binary.ofFloat x).toRat = 0 := le_antisymm hzero hnonneg
    rw [hnone]
    norm_num

end SealedMetadata.Decimal
