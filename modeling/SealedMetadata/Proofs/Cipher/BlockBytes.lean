import SealedMetadata.Cipher.Aes

/-!
Blocks and their bytes: sixteen bytes are a block, and bytes are read as blocks exactly if they are
a whole number of them.
-/

namespace SealedMetadata.Aes

theorem exists_block {b : Bytes} (h : b.length = 16) : ∃ x : Block, x.bytes = b := by
  match b, h with
  | [a₀, a₁, a₂, a₃, b₀, b₁, b₂, b₃, c₀, c₁, c₂, c₃, d₀, d₁, d₂, d₃], _ =>
    exact ⟨⟨⟨a₀, a₁, a₂, a₃⟩, ⟨b₀, b₁, b₂, b₃⟩, ⟨c₀, c₁, c₂, c₃⟩, ⟨d₀, d₁, d₂, d₃⟩⟩, rfl⟩

theorem exists_blocks (count : Nat) {b : Bytes} (h : b.length = 16 * count) :
    ∃ xs : List Block, xs.flatMap Block.bytes = b := by
  induction count generalizing b with
  | zero => exact ⟨[], (List.length_eq_zero_iff.mp h).symm⟩
  | succ count ih =>
    have hhead : (b.take 16).length = 16 := by
      rw [List.length_take]
      omega
    have htail : (b.drop 16).length = 16 * count := by
      rw [List.length_drop]
      omega
    obtain ⟨x, hx⟩ := exists_block hhead
    obtain ⟨xs, hxs⟩ := ih htail
    refine ⟨x :: xs, ?_⟩
    rw [List.flatMap_cons, hx, hxs, List.take_append_drop]

theorem blocks?_bytes_append (x : Block) (rest : Bytes) :
    blocks? (x.bytes ++ rest) = (blocks? rest).map (x :: ·) := by
  obtain ⟨⟨a₀, a₁, a₂, a₃⟩, ⟨b₀, b₁, b₂, b₃⟩, ⟨c₀, c₁, c₂, c₃⟩, ⟨d₀, d₁, d₂, d₃⟩⟩ := x
  simp only [Block.bytes, Column.bytes, List.cons_append, List.nil_append, blocks?]
  cases blocks? rest <;> rfl

/-- Blocks are read back from their bytes. -/
theorem blocks?_flatMap_bytes (xs : List Block) : blocks? (xs.flatMap Block.bytes) = some xs := by
  induction xs with
  | nil => rfl
  | cons x xs ih => rw [List.flatMap_cons, blocks?_bytes_append, ih, Option.map_some]

theorem blocks?_bytes (x : Block) : blocks? x.bytes = some [x] := rfl

/-- Blocks have the bytes that they were read from. -/
theorem flatMap_bytes_of_blocks? {b : Bytes} {xs : List Block} (h : blocks? b = some xs) :
    xs.flatMap Block.bytes = b := by
  -- one block of sixteen bytes at a time, as they are read
  fun_induction blocks? b generalizing xs with
  | case1 =>
    obtain rfl := Option.some.inj h
    rfl
  | case2 a₀ a₁ a₂ a₃ b₀ b₁ b₂ b₃ c₀ c₁ c₂ c₃ d₀ d₁ d₂ d₃ rest ih =>
    obtain ⟨ys, hys, hxs⟩ := Option.bind_eq_some_iff.mp h
    obtain rfl := Option.some.inj hxs
    rw [List.flatMap_cons, ih hys]
    rfl
  | case3 b hnil hblock => cases h

theorem length_flatMap_bytes (xs : List Block) :
    (xs.flatMap Block.bytes).length = 16 * xs.length := by
  induction xs with
  | nil => rfl
  | cons x xs ih =>
    rw [List.flatMap_cons, List.length_append, length_bytes, ih, List.length_cons]
    omega

theorem blocks?_eq_none_iff {b : Bytes} : blocks? b = none ↔ ¬ 16 ∣ b.length := by
  constructor
  · rintro h ⟨count, hcount⟩
    obtain ⟨xs, hxs⟩ := exists_blocks count hcount
    rw [← hxs, blocks?_flatMap_bytes] at h
    cases h
  · intro h
    cases hxs : blocks? b with
    | none => rfl
    | some xs =>
      have hlength := length_flatMap_bytes xs
      rw [flatMap_bytes_of_blocks? hxs] at hlength
      exact absurd ⟨xs.length, hlength⟩ h

end SealedMetadata.Aes
