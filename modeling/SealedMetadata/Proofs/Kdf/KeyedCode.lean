import SealedMetadata.Kdf.Hmac
import SealedMetadata.Proofs.Bytes.Words

/-!
The code of a message under a key, on whole byte strings. The two hash states that a key is kept as
stand for its inner and outer block, so the code that is continued from them is the digest of the
outer block followed by the digest of the inner block and the message.
-/

namespace SealedMetadata

namespace Sha512

/-- Whole blocks are absorbed before the rest. -/
theorem absorb_append (s : State) {count : Nat} {ws : List UInt64} (hws : ws.length = 16 * count)
    (vs : List UInt64) : absorb s (ws ++ vs) = absorb (absorb s ws) vs := by
  induction count generalizing s ws with
  | zero =>
    obtain rfl := List.length_eq_zero_iff.mp hws
    rfl
  | succ count ih =>
    match ws, hws with
    | w₀ :: w₁ :: w₂ :: w₃ :: w₄ :: w₅ :: w₆ :: w₇ :: w₈ :: w₉ :: w₁₀ :: w₁₁ ::
        w₁₂ :: w₁₃ :: w₁₄ :: w₁₅ :: rest, hws =>
      simp only [List.length_cons] at hws
      have hrest : rest.length = 16 * count := by omega
      exact ih (compress s ⟨w₀, w₁, w₂, w₃, w₄, w₅, w₆, w₇,
        w₈, w₉, w₁₀, w₁₁, w₁₂, w₁₃, w₁₄, w₁₅⟩) hrest

/-- A message that begins with whole blocks may be finished from the state after them. -/
theorem finish_append (s : State) (before : Nat) {count : Nat} {b : Bytes}
    (hb : b.length = 128 * count) (m : Bytes) :
    finish s before (b ++ m) =
      finish (absorb s (Bytes.words64BE b)) (before + b.length) m := by
  have hbytes : b.length = 8 * (16 * count) := by omega
  have hwords := Bytes.length_words64BE hbytes
  rw [finish, finish, List.append_assoc, List.length_append, ← Nat.add_assoc,
    Bytes.words64BE_append hbytes, absorb_append s hwords]

theorem words64BE_bytes (t : State) :
    Bytes.words64BE t.bytes = [t.a, t.b, t.c, t.d, t.e, t.f, t.g, t.h] :=
  Bytes.words64BE_flatMap _

end Sha512

namespace Hmac

/-- The code of a message: the digest of the key's block under the outer mask and of the digest of
the key's block under the inner mask and the message. -/
def code (key m : Bytes) : Bytes :=
  Sha512.digest ((keyBlock key).map (· ^^^ 0x5c) ++
    Sha512.digest ((keyBlock key).map (· ^^^ 0x36) ++ m))

theorem length_code (key m : Bytes) : (code key m).length = 64 := Sha512.length_digest _

/-- Keys of any length are brought to one block. -/
theorem length_keyBlock (key : Bytes) : (keyBlock key).length = 128 := by
  have hshort : (if key.length ≤ 128 then key else Sha512.digest key).length ≤ 128 := by
    split
    · assumption
    · rw [Sha512.length_digest]
      decide
  rw [keyBlock, List.length_append, List.length_replicate]
  omega

/-- A digest of a message that begins with a masked key is finished from the state kept for it. -/
theorem digest_masked (mask : UInt8) (key m : Bytes) :
    Sha512.digest ((keyBlock key).map (· ^^^ mask) ++ m) =
      (Sha512.finish (maskedState mask key) 128 m).bytes := by
  have hblock : ((keyBlock key).map (· ^^^ mask)).length = 128 * 1 := by
    rw [List.length_map, length_keyBlock]
  rw [Sha512.digest, Sha512.finish_append Sha512.initial 0 hblock, hblock]
  rfl

/-- What ends a message of a block and a digest, in words. -/
theorem words_ending : Bytes.words64BE (Hash.ending 128 16 (Bytes.ofNatBE 16) (128 + 64)) =
    [0x8000000000000000, 0, 0, 0, 0, 0, 0, 1536] := by
  decide

theorem finish_bytes (s t : Sha512.State) :
    Sha512.finish s 128 t.bytes = Sha512.compress s (lastWindow t) := by
  have hlength : t.bytes.length = 8 * 8 := Sha512.length_bytes t
  rw [Sha512.finish, Bytes.words64BE_append hlength, Sha512.words64BE_bytes, Sha512.length_bytes,
    words_ending]
  rfl

theorem codeOfDigest_eq (k : Key) (s : Sha512.State) : k.codeOfDigest s = k.code s.bytes := by
  rw [Key.codeOfDigest, Key.code, finish_bytes]

theorem bytes_code (key m : Bytes) : ((Key.ofBytes key).code m).bytes = code key m := by
  rw [code, digest_masked, digest_masked, finish_bytes]
  rfl

end Hmac

end SealedMetadata
