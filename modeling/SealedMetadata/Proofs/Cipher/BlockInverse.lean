import SealedMetadata.Cipher.Aes
import SealedMetadata.Proofs.Bytes.ByteFacts

/-!
The block cipher under one list of round keys decrypts what it encrypts. Each layer of a round
has its inverse. For the mixing of columns that rests on two facts: doubling is additive, and the
product of both matrices has the entries of the unit matrix.
-/

namespace SealedMetadata.Aes

theorem unsubstitute_substitute (b : UInt8) : unsubstitute (substitute b) = b := by
  revert b
  apply forall_byte
  decide +kernel

theorem top_bit (b : UInt8) : b &&& 0x80 = 0 ∨ b &&& 0x80 = 0x80 := by
  revert b
  apply forall_byte
  decide +kernel

/-- Doubling is additive: the two reductions of a carry cancel. -/
theorem double_xor (a b : UInt8) : double (a ^^^ b) = double a ^^^ double b := by
  have hx := xor_and_byte a b 0x80
  rcases top_bit a with ha | ha <;> rcases top_bit b with hb | hb <;> rw [ha, hb] at hx
  · simp [double, hx, ha, hb, UInt8.shiftLeft_xor]
  · simp [double, hx, ha, hb, UInt8.shiftLeft_xor, UInt8.xor_assoc]
  · simp [double, hx, ha, hb, UInt8.shiftLeft_xor]
    ac_rfl
  · simp [double, hx, ha, hb, UInt8.shiftLeft_xor, xor_pair_cancel]

theorem times9_xor (a b : UInt8) : times9 (a ^^^ b) = times9 a ^^^ times9 b := by
  simp only [times9, double_xor]
  ac_rfl

theorem times11_xor (a b : UInt8) : times11 (a ^^^ b) = times11 a ^^^ times11 b := by
  simp only [times11, double_xor]
  ac_rfl

theorem times13_xor (a b : UInt8) : times13 (a ^^^ b) = times13 a ^^^ times13 b := by
  simp only [times13, double_xor]
  ac_rfl

theorem times14_xor (a b : UInt8) : times14 (a ^^^ b) = times14 a ^^^ times14 b := by
  simp only [times14, double_xor]
  ac_rfl

/-- The first row of the product of both matrices, an entry at a time. -/
theorem first_row_entries (a : UInt8) :
    times14 (double a) ^^^ times11 a ^^^ times13 a ^^^ times9 (triple a) = a ∧
      times14 (triple a) ^^^ times11 (double a) ^^^ times13 a ^^^ times9 a = 0 ∧
      times14 a ^^^ times11 (triple a) ^^^ times13 (double a) ^^^ times9 a = 0 ∧
      times14 a ^^^ times11 a ^^^ times13 (triple a) ^^^ times9 (double a) = 0 := by
  revert a
  apply forall_byte
  decide +kernel

theorem unmix_mix_first (x : Column) : x.mix.unmix.b₀ = x.b₀ := by
  obtain ⟨a, b, c, d⟩ := x
  obtain ⟨ha, -, -, -⟩ := first_row_entries a
  obtain ⟨-, hb, -, -⟩ := first_row_entries b
  obtain ⟨-, -, hc, -⟩ := first_row_entries c
  obtain ⟨-, -, -, hd⟩ := first_row_entries d
  simp only [Column.mix, Column.unmix, times9_xor, times11_xor, times13_xor, times14_xor]
  -- collected by the four bytes of the column, of which the other three must vanish
  calc
    _ = (times14 (double a) ^^^ times11 a ^^^ times13 a ^^^ times9 (triple a)) ^^^
        (times14 (triple b) ^^^ times11 (double b) ^^^ times13 b ^^^ times9 b) ^^^
        (times14 c ^^^ times11 (triple c) ^^^ times13 (double c) ^^^ times9 c) ^^^
        (times14 d ^^^ times11 d ^^^ times13 (triple d) ^^^ times9 (double d)) := by ac_rfl
    _ = a := by rw [ha, hb, hc, hd, UInt8.xor_zero, UInt8.xor_zero, UInt8.xor_zero]

/-- A column turned by one place. Both matrices commute with the turn. -/
def Column.turn (x : Column) : Column := ⟨x.b₁, x.b₂, x.b₃, x.b₀⟩

theorem mix_turn (x : Column) : x.turn.mix = x.mix.turn := by
  simp only [Column.turn, Column.mix, Column.mk.injEq]
  refine ⟨?_, ?_, ?_, ?_⟩ <;> ac_rfl

theorem unmix_turn (x : Column) : x.turn.unmix = x.unmix.turn := by
  simp only [Column.turn, Column.unmix, Column.mk.injEq]
  refine ⟨?_, ?_, ?_, ?_⟩ <;> ac_rfl

/-- Unmixing undoes mixing: every byte of a column comes first after some turns. -/
theorem unmix_mix (x : Column) : x.mix.unmix = x := by
  have hturn (y : Column) : y.mix.unmix.turn = y.turn.mix.unmix := by
    rw [mix_turn, unmix_turn]
  have h₁ : x.mix.unmix.turn.b₀ = x.b₁ := by
    rw [hturn, unmix_mix_first]
    rfl
  have h₂ : x.mix.unmix.turn.turn.b₀ = x.b₂ := by
    rw [hturn, hturn, unmix_mix_first]
    rfl
  have h₃ : x.mix.unmix.turn.turn.turn.b₀ = x.b₃ := by
    rw [hturn, hturn, hturn, unmix_mix_first]
    rfl
  calc
    x.mix.unmix = ⟨x.mix.unmix.b₀, x.mix.unmix.b₁, x.mix.unmix.b₂, x.mix.unmix.b₃⟩ := rfl
    _ = ⟨x.b₀, x.b₁, x.b₂, x.b₃⟩ := (Column.mk.injEq ..).mpr ⟨unmix_mix_first x, h₁, h₂, h₃⟩

theorem Column.unsubstitute_column (x : Column) : x.substitute.unsubstitute = x := by
  simp only [Column.substitute, Column.unsubstitute, unsubstitute_substitute]

theorem Column.xor_column_cancel (x y : Column) : (x.xor y).xor y = x := by
  simp only [Column.xor, xor_byte_cancel]

theorem Block.xor_block_cancel (x y : Block) : (x.xor y).xor y = x := by
  simp only [Block.xor, Column.xor_column_cancel]

theorem Block.map_of_inverse {f g : Column → Column} (h : ∀ x, g (f x) = x) (x : Block) :
    (x.map f).map g = x := by
  simp only [Block.map, h]

theorem unshift_shift (x : Block) : x.shift.unshift = x := rfl

/-- The rounds come undone layer by layer, the last round first. -/
theorem unrounds_rounds (keys : List Block) (x : Block) : unrounds keys (rounds keys x) = x := by
  -- along the round keys: the last round has no mixing, and no other case takes its key
  fun_induction rounds keys x with
  | case1 x => rfl
  | case2 k x =>
    rw [unrounds, Block.xor_block_cancel, unshift_shift,
      Block.map_of_inverse Column.unsubstitute_column]
  | case3 k ks x hks ih =>
    rw [unrounds, ih, Block.xor_block_cancel, Block.map_of_inverse unmix_mix, unshift_shift,
      Block.map_of_inverse Column.unsubstitute_column]
    exact hks

/-- A block is read back from its encryption under the same round keys. -/
theorem decrypt_encrypt (keys : List Block) (x : Block) : decrypt keys (encrypt keys x) = x := by
  cases keys with
  | nil => rfl
  | cons k ks => rw [encrypt, decrypt, unrounds_rounds, Block.xor_block_cancel]

end SealedMetadata.Aes
