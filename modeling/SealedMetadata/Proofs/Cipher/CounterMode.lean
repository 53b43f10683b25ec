import SealedMetadata.Cipher.Gcm
import SealedMetadata.Proofs.Bytes.ByteFacts
import SealedMetadata.Proofs.Cipher.BlockBytes

/-!
Counter mode read back, for nonces of twelve bytes: the key stream covers the text, so that the
mask comes off again, and the tag of the encrypted text is the one that was sent. Nothing else is
accepted, since the mask goes on again too and each encrypted text has one tag.
-/

namespace SealedMetadata.Gcm

open Aes (Block)

section Nonce

variable (keys : List Block) {nonce : Bytes} (hnonce : nonce.length = 12)
include hnonce

theorem length_counterBlock (counter : Nat) : (counterBlock keys nonce counter).length = 16 := by
  -- here the length of the nonce matters: with four bytes of counter it fills one block
  have hlength : (nonce ++ Bytes.ofNatBE 4 counter).length = 16 := by
    rw [List.length_append, hnonce, Bytes.length_ofNatBE]
  obtain ⟨x, hx⟩ := Aes.exists_block hlength
  rw [counterBlock, ← hx, Aes.blocks?_bytes]
  exact Aes.length_bytes _

theorem length_keyStream (count : Nat) :
    (keyStream keys nonce count).length = 16 * ((count + 15) / 16) := by
  have hlengths : (List.range ((count + 15) / 16)).map
      (fun i => (counterBlock keys nonce (i + 2)).length) =
        List.replicate ((count + 15) / 16) 16 := by
    apply List.eq_replicate_iff.mpr
    refine ⟨by simp, ?_⟩
    intro n hn
    obtain ⟨i, -, rfl⟩ := List.mem_map.mp hn
    exact length_counterBlock keys hnonce _
  rw [keyStream, List.length_flatMap, hlengths, List.sum_replicate_nat, Nat.mul_comm]

theorem length_mask (text : Bytes) : (mask keys nonce text).length = text.length := by
  rw [mask, Bytes.length_xor, length_keyStream keys hnonce]
  omega

/-- The mask is its own inverse. -/
theorem mask_mask (text : Bytes) : mask keys nonce (mask keys nonce text) = text := by
  have hcover : text.length ≤ (keyStream keys nonce text.length).length := by
    rw [length_keyStream keys hnonce]
    omega
  rw [mask, length_mask keys hnonce, mask, Bytes.xor_xor_cancel hcover]

theorem length_tag (body : Bytes) : (tag keys nonce body).length = 16 := by
  simp [tag, length_counterBlock keys hnonce, Bytes.ofWord64BE]

end Nonce

theorem length_encrypt (key : Bytes) {nonce : Bytes} (hnonce : nonce.length = 12) (text : Bytes) :
    (encrypt key nonce text).length = text.length + 16 := by
  rw [encrypt, List.length_append, length_tag _ hnonce, length_mask _ hnonce]

/-- A text is read back from its encryption under the same key and nonce. -/
theorem decrypt?_encrypt (key : Bytes) {nonce : Bytes} (hnonce : nonce.length = 12)
    (text : Bytes) : decrypt? key nonce (encrypt key nonce text) = some text := by
  have hlength := length_encrypt key hnonce text
  have hmask := length_mask (Aes.roundKeys key) hnonce text
  have hsize : (encrypt key nonce text).length - 16 =
      (mask (Aes.roundKeys key) nonce text).length := by omega
  have hlong : 16 ≤ (encrypt key nonce text).length := by omega
  rw [decrypt?]
  simp only [hsize, hlong, true_and]
  -- the tag is checked on the encrypted text, before the mask comes off
  rw [encrypt, List.take_left, List.drop_left, if_pos rfl, mask_mask _ hnonce]

/-- What is accepted as the encryption of a text is that encryption. -/
theorem encrypt_of_decrypt? {key nonce body text : Bytes} (hnonce : nonce.length = 12)
    (h : decrypt? key nonce body = some text) : encrypt key nonce text = body := by
  rw [decrypt?] at h
  split at h
  · rename_i haccepted
    obtain ⟨hlong, htag⟩ := haccepted
    have htext : mask (Aes.roundKeys key) nonce (body.take (body.length - 16)) = text :=
      Option.some.inj h
    have hmasked : mask (Aes.roundKeys key) nonce text = body.take (body.length - 16) := by
      rw [← htext, mask_mask _ hnonce]
    calc
      encrypt key nonce text
        = mask (Aes.roundKeys key) nonce text ++
            tag (Aes.roundKeys key) nonce (mask (Aes.roundKeys key) nonce text) := rfl
      _ = body.take (body.length - 16) ++ body.drop (body.length - 16) := by rw [hmasked, htag]
      _ = body := List.take_append_drop _ _
  · cases h

theorem decrypt?_eq_some_iff {key nonce body text : Bytes} (hnonce : nonce.length = 12) :
    decrypt? key nonce body = some text ↔ encrypt key nonce text = body := by
  constructor
  · exact encrypt_of_decrypt? hnonce
  · rintro rfl
    exact decrypt?_encrypt key hnonce text

theorem decrypt?_of_short {key nonce body : Bytes} (h : body.length < 16) :
    decrypt? key nonce body = none := by
  rw [decrypt?]
  apply if_neg
  rintro ⟨hlong, -⟩
  exact absurd h (Nat.not_lt.mpr hlong)

/-- Of sixteen bytes after an encrypted text, its tag is accepted and nothing else. -/
theorem exists_decrypt?_append_iff {key nonce masked t : Bytes} (ht : t.length = 16) :
    (∃ text, decrypt? key nonce (masked ++ t) = some text) ↔
      t = tag (Aes.roundKeys key) nonce masked := by
  have hsize : (masked ++ t).length - 16 = masked.length := by
    rw [List.length_append, ht]
    omega
  have hlong : 16 ≤ (masked ++ t).length := by
    rw [List.length_append, ht]
    omega
  rw [decrypt?]
  simp only [hsize, hlong, true_and, List.take_left, List.drop_left]
  by_cases htag : t = tag (Aes.roundKeys key) nonce masked
  · rw [if_pos htag]
    exact ⟨fun _ => htag, fun _ => ⟨_, rfl⟩⟩
  · rw [if_neg htag]
    constructor
    · rintro ⟨text, htext⟩
      cases htext
    · intro h
      exact absurd h htag

end SealedMetadata.Gcm
