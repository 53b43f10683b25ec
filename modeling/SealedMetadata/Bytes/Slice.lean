import SealedMetadata.Bytes

/-!
Parts of a byte string named by signed places: a place below zero counts from the end.
-/

namespace SealedMetadata.Bytes

/-- The place in a string of `size` bytes that a signed number names. -/
def place (size : Nat) (i : Int) : Nat :=
  if i < 0 then (size + i).toNat else min i.toNat size

/-- The bytes from one place to another, none if the second does not follow the first. -/
def slice (b : Bytes) (start stop : Int) : Bytes :=
  let i := place b.length start
  (b.drop i).take (place b.length stop - i)

theorem place_natCast {size n : Nat} (h : n ≤ size) : place size n = n := by
  have hnonneg : ¬ (n : Int) < 0 := by omega
  rw [place, if_neg hnonneg, Int.toNat_natCast, Nat.min_eq_left h]

/-- The part between two places that are in the string and counted from its beginning. -/
theorem slice_natCast (b : Bytes) {i j : Nat} (hi : i ≤ b.length) (hj : j ≤ b.length) :
    b.slice i j = (b.drop i).take (j - i) := by
  simp only [slice, place_natCast hi, place_natCast hj]

end SealedMetadata.Bytes
