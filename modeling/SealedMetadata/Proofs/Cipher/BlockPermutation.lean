import Mathlib.Data.Finite.Prod
import Mathlib.Data.Fintype.EquivFin
import SealedMetadata.Proofs.Cipher.BlockInverse

/-!
The block cipher as a permutation. There are finitely many blocks, so that decryption, which undoes
encryption, is undone by it as well.
-/

namespace SealedMetadata.Aes

instance finiteByte : Finite UInt8 :=
  Finite.of_injective UInt8.toFin fun _ _ h => UInt8.toFin_inj.mp h

instance : Finite Column := by
  apply Finite.of_injective fun x : Column => (x.b₀, x.b₁, x.b₂, x.b₃)
  intro x y h
  obtain ⟨x₀, x₁, x₂, x₃⟩ := x
  obtain ⟨y₀, y₁, y₂, y₃⟩ := y
  simpa only [Prod.mk.injEq, Column.mk.injEq] using h

instance : Finite Block := by
  apply Finite.of_injective fun x : Block => (x.c₀, x.c₁, x.c₂, x.c₃)
  intro x y h
  obtain ⟨x₀, x₁, x₂, x₃⟩ := x
  obtain ⟨y₀, y₁, y₂, y₃⟩ := y
  simpa only [Prod.mk.injEq, Block.mk.injEq] using h

/-- Different blocks have different encryptions, and every block is one. -/
theorem encrypt_surjective (keys : List Block) : Function.Surjective (encrypt keys) := by
  have hinverse : Function.LeftInverse (decrypt keys) (encrypt keys) := decrypt_encrypt keys
  exact Finite.injective_iff_surjective.mp hinverse.injective

/-- A block is what the encryption of its decryption gives. -/
theorem encrypt_decrypt (keys : List Block) (x : Block) : encrypt keys (decrypt keys x) = x := by
  obtain ⟨y, rfl⟩ := encrypt_surjective keys x
  rw [decrypt_encrypt]

end SealedMetadata.Aes
