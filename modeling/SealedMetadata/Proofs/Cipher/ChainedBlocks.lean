import SealedMetadata.Cipher.Cbc
import SealedMetadata.Proofs.Cipher.BlockBytes
import SealedMetadata.Proofs.Cipher.BlockInverse

/-!
Chained blocks read back, for texts of every length: the chain decrypts block by block, and the
filling, a whole block where the text is whole blocks already, comes off again.
-/

namespace SealedMetadata.Cbc

open Aes (Block)

/-- Each block is read back under the encrypted block before it. -/
theorem decryptBlocks_encryptBlocks (keys : List Block) (iv : Block) (xs : List Block) :
    decryptBlocks keys iv (encryptBlocks keys iv xs) = xs := by
  induction xs generalizing iv with
  | nil => rfl
  | cons x xs ih =>
    rw [encryptBlocks, decryptBlocks, Aes.decrypt_encrypt, Block.xor_block_cancel, ih]

theorem length_fill (text : Bytes) : (fill text).length = 16 * (text.length / 16 + 1) := by
  simp only [fill, List.length_append, List.length_replicate]
  omega

/-- The last byte of a filled text says how much of it is filling. -/
theorem unfill?_fill (text : Bytes) : unfill? (fill text) = some text := by
  -- from one byte to a whole block, so that there always is a last byte to read
  obtain ⟨n, hn⟩ : ∃ n, n = 16 - text.length % 16 := ⟨_, rfl⟩
  have hpos : 1 ≤ n := by omega
  have hle : n ≤ 16 := by omega
  have hbyte : n.toUInt8.toNat = n := by
    rw [Nat.toUInt8_eq, UInt8.toNat_ofNat']
    omega
  have hfill : fill text = text ++ List.replicate n n.toUInt8 := by
    rw [hn]
    rfl
  have hlength : (fill text).length = text.length + n := by
    rw [hfill, List.length_append, List.length_replicate]
  have hkept : (fill text).length - n = text.length := by omega
  have hlast : (fill text).getLast? = some n.toUInt8 := by
    rw [hfill, List.getLast?_append, List.getLast?_replicate, if_neg (by omega)]
    rfl
  have hall : ((fill text).drop text.length).all (· = n.toUInt8) = true := by
    rw [hfill, List.drop_left]
    simp
  rw [unfill?, hlast, Option.bind_eq_bind, Option.bind_some]
  dsimp only
  rw [hbyte, hkept, guard_of ⟨hpos, hle, by omega, hall⟩, hfill, List.take_left]
  rfl

theorem length_encryptBlocks (keys : List Block) (iv : Block) (xs : List Block) :
    (encryptBlocks keys iv xs).length = xs.length := by
  induction xs generalizing iv with
  | nil => rfl
  | cons x xs ih => rw [encryptBlocks, List.length_cons, List.length_cons, ih]

/-- There is always some filling, so whole blocks of text are encrypted to one block more. -/
theorem length_encrypt (key iv text : Bytes) :
    (encrypt key iv text).length = 16 * (text.length / 16 + 1) := by
  obtain ⟨xs, hxs⟩ := Aes.exists_blocks _ (length_fill text)
  have hblocks : Aes.blocks? (fill text) = some xs := by
    rw [← hxs, Aes.blocks?_flatMap_bytes]
  have hcount : 16 * xs.length = 16 * (text.length / 16 + 1) := by
    rw [← Aes.length_flatMap_bytes, hxs, length_fill]
  rw [encrypt, hblocks, Option.getD_some, Aes.length_flatMap_bytes, length_encryptBlocks, hcount]

/-- A text is read back from its chained encryption under the same key and vector. -/
theorem decrypt?_encrypt (key iv text : Bytes) :
    decrypt? key iv (encrypt key iv text) = some text := by
  obtain ⟨xs, hxs⟩ := Aes.exists_blocks _ (length_fill text)
  have hblocks : Aes.blocks? (fill text) = some xs := by
    rw [← hxs, Aes.blocks?_flatMap_bytes]
  rw [encrypt, decrypt?, hblocks, Option.getD_some, Aes.blocks?_flatMap_bytes]
  simp only [Option.bind_eq_bind, Option.bind_some]
  rw [decryptBlocks_encryptBlocks, hxs, unfill?_fill]

end SealedMetadata.Cbc
