import SealedMetadata.Bytes

/-!
Rows of pieces of one size, joined from the left. A row of more pieces goes on where one of fewer
ends, so a part that is cut from the beginning does not depend on how long a row it is cut from.
-/

namespace SealedMetadata.Bytes

/-- The first `count` pieces, joined. -/
def row (piece : Nat → Bytes) (count : Nat) : Bytes := (List.range count).flatMap piece

theorem row_succ (piece : Nat → Bytes) (count : Nat) :
    row piece (count + 1) = row piece count ++ piece count := by
  rw [row, row, List.range_succ, List.flatMap_append, List.flatMap_singleton]

theorem row_prefix (piece : Nat → Bytes) {m n : Nat} (h : m ≤ n) : row piece m <+: row piece n := by
  induction h with
  | refl => exact List.prefix_rfl
  | step hle ih =>
    rw [Nat.succ_eq_add_one, row_succ]
    exact ih.trans (List.prefix_append _ _)

section Size

variable {piece : Nat → Bytes} {size : Nat} (hsize : ∀ i, (piece i).length = size)
include hsize

theorem length_row (count : Nat) : (row piece count).length = size * count := by
  induction count with
  | zero => rfl
  | succ count ih => rw [row_succ, List.length_append, ih, hsize, Nat.mul_succ]

/-- A part that is cut from a row is the same in every row that is long enough. -/
theorem take_row {m n k : Nat} (hm : k ≤ size * m) (hn : k ≤ size * n) :
    (row piece m).take k = (row piece n).take k := by
  have hle {m n : Nat} (hm : k ≤ size * m) (h : m ≤ n) :
      (row piece m).take k = (row piece n).take k := by
    obtain ⟨rest, hrest⟩ := row_prefix piece h
    have hlong : k ≤ (row piece m).length := by
      rw [length_row hsize]
      exact hm
    rw [← hrest, List.take_append_of_le_length hlong]
  rcases Nat.le_total m n with h | h
  · exact hle hm h
  · exact (hle hn h).symm

end Size

end SealedMetadata.Bytes
