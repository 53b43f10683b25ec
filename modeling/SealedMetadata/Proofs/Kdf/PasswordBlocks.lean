import SealedMetadata.Bytes.Hex
import SealedMetadata.Kdf.PasswordKey
import SealedMetadata.Proofs.Bytes.Rows
import SealedMetadata.Proofs.Kdf.KeyedCode

/-!
Keys from passwords as cuts of a row of blocks. A block is the sum of the links of a chain of codes,
all of them under the password: the first link is the code of the salt and the block's number, and
each later one the code of the link before. The sum is taken in full before anything is cut, so a
key is the beginning of every longer one.
-/

namespace SealedMetadata.Pbkdf2

open Sha512 (State)

theorem length_block (k : Hmac.Key) (salt : Bytes) (iterations i : Nat) :
    (block k salt iterations i).length = 64 :=
  Sha512.length_bytes _

/-- The row of the first `count` blocks, which are numbered from one. -/
def blocks (password salt : Bytes) (iterations count : Nat) : Bytes :=
  Bytes.row (fun i => block (Hmac.Key.ofBytes password) salt iterations (i + 1)) count

theorem length_blocks (password salt : Bytes) (iterations count : Nat) :
    (blocks password salt iterations count).length = 64 * count :=
  Bytes.length_row (fun i => length_block _ salt iterations (i + 1)) count

/-- A key is cut from any row of blocks that is long enough for it. -/
theorem derive_eq_take_blocks (password salt : Bytes) (iterations : Nat) {length count : Nat}
    (h : length ≤ 64 * count) :
    derive password salt iterations length =
      (blocks password salt iterations count).take length := by
  -- as many blocks are made as hold the key
  have hmade : length ≤ 64 * ((length + 63) / 64) := by omega
  exact Bytes.take_row (fun i => length_block _ salt iterations (i + 1)) hmade h

theorem length_derive (password salt : Bytes) (iterations length : Nat) :
    (derive password salt iterations length).length = length := by
  have hlong : length ≤ 64 * length := by omega
  rw [derive_eq_take_blocks password salt iterations hlong, List.length_take, length_blocks]
  omega

/-- A key is the beginning of every longer one. -/
theorem derive_eq_take_derive (password salt : Bytes) (iterations : Nat) {length length' : Nat}
    (h : length ≤ length') :
    derive password salt iterations length =
      (derive password salt iterations length').take length := by
  have hlong : length' ≤ 64 * length' := by omega
  calc
    derive password salt iterations length
      = (blocks password salt iterations length').take length :=
        derive_eq_take_blocks password salt iterations (Nat.le_trans h hlong)
    _ = ((blocks password salt iterations length').take length').take length := by
        rw [List.take_take, Nat.min_eq_left h]
    _ = (derive password salt iterations length').take length := by
        rw [derive_eq_take_blocks password salt iterations hlong]

/-- The links of the chain for a block, counted from zero. -/
def link (password salt : Bytes) (i : Nat) : Nat → Bytes
  | 0 => Hmac.code password (salt ++ Bytes.ofNatBE 4 i)
  | n + 1 => Hmac.code password (link password salt i n)

/-- The sum of the first links of the chain for a block. -/
def linkSum (password salt : Bytes) (i : Nat) : Nat → Bytes
  | 0 => List.replicate 64 0
  | n + 1 => (linkSum password salt i n).xor (link password salt i n)

theorem linkSum_one (password salt : Bytes) (i : Nat) :
    linkSum password salt i 1 = link password salt i 0 :=
  Bytes.xor_zeros (Hmac.length_code _ _)

theorem bytes_add (s t : State) : (add s t).bytes = s.bytes.xor t.bytes := by
  have hlength : [s.a, s.b, s.c, s.d, s.e, s.f, s.g, s.h].length =
      [t.a, t.b, t.c, t.d, t.e, t.f, t.g, t.h].length := rfl
  exact Bytes.flatMap_ofWord64BE_xor hlength

/-- The chain goes on from any link and the sum up to it. -/
theorem bytes_chain (password salt : Bytes) (i count : Nat) {n : Nat} {s sum : State}
    (hlink : s.bytes = link password salt i n)
    (hsum : sum.bytes = linkSum password salt i (n + 1)) :
    (chain (Hmac.Key.ofBytes password) count s sum).bytes =
      linkSum password salt i (n + 1 + count) := by
  -- by induction on the links that are still to come; what is kept is the last link and the sum
  induction count generalizing n s sum with
  | zero => exact hsum
  | succ count ih =>
    have hnext : ((Hmac.Key.ofBytes password).codeOfDigest s).bytes =
        link password salt i (n + 1) := by
      rw [Hmac.codeOfDigest_eq, Hmac.bytes_code, hlink, link]
    have hadded : (add sum ((Hmac.Key.ofBytes password).codeOfDigest s)).bytes =
        linkSum password salt i (n + 1 + 1) := by
      rw [bytes_add, hsum, hnext, ← linkSum]
    have hrest := ih hnext hadded
    have hplace : n + 1 + 1 + count = n + 1 + (count + 1) := by omega
    rw [hplace] at hrest
    exact hrest

/-- A block is the sum of as many links as there are iterations. -/
theorem bytes_block (password salt : Bytes) {iterations : Nat} (hpos : 1 ≤ iterations) (i : Nat) :
    block (Hmac.Key.ofBytes password) salt iterations i = linkSum password salt i iterations := by
  have hfirst : ((Hmac.Key.ofBytes password).code (salt ++ Bytes.ofNatBE 4 i)).bytes =
      link password salt i 0 := Hmac.bytes_code _ _
  have hsum := hfirst.trans (linkSum_one password salt i).symm
  have hchain := bytes_chain password salt i (iterations - 1) hfirst hsum
  have hcount : 0 + 1 + (iterations - 1) = iterations := by omega
  rw [hcount] at hchain
  exact hchain

/-- The longest key that is cut from one block is the whole of it. -/
theorem derive_block (password salt : Bytes) {iterations : Nat} (hpos : 1 ≤ iterations) :
    derive password salt iterations 64 = linkSum password salt 1 iterations := by
  have hlength := length_block (Hmac.Key.ofBytes password) salt iterations 1
  calc
    derive password salt iterations 64
      = (blocks password salt iterations 1).take 64 :=
        derive_eq_take_blocks password salt iterations (Nat.le_refl (64 * 1))
    _ = (block (Hmac.Key.ofBytes password) salt iterations 1).take 64 :=
        congrArg (List.take 64) (List.append_nil _)
    _ = block (Hmac.Key.ofBytes password) salt iterations 1 :=
        List.take_of_length_le (Nat.le_of_eq hlength)
    _ = linkSum password salt 1 iterations := bytes_block password salt hpos 1

-- a password and a salt of one word each, and two iterations
example : Hex.encode (linkSum (Utf8.encode "password") (Utf8.encode "salt") 1 2) =
    "e1d9c16aa681708a45f5c7c4e215ceb66e011a2e9f0040713f18aefdb866d53c" ++
      "f76cab2868a39b9f7840edce4fef5a82be67335c77a6068e04112754f27ccf4e" := by
  decide +kernel

end SealedMetadata.Pbkdf2

namespace SealedMetadata.PasswordKey

theorem length_derive256 (password salt : Secret) (count : Int) :
    (derive256 password salt count).length = 32 :=
  Pbkdf2.length_derive _ _ _ 32

theorem length_derive512 (password salt : Secret) (count : Int) :
    (derive512 password salt count).length = 64 :=
  Pbkdf2.length_derive _ _ _ 64

end SealedMetadata.PasswordKey
