import SealedMetadata.Kdf.Hmac

/-!
PBKDF2 over HMAC with SHA-512: the key is cut from a row of blocks of sixty-four bytes, and each
block is the sum of a chain of codes.
-/

namespace SealedMetadata.Pbkdf2

open Sha512 (State)

/-- The wordwise exclusive or. -/
def add (s t : State) : State :=
  ⟨s.a ^^^ t.a, s.b ^^^ t.b, s.c ^^^ t.c, s.d ^^^ t.d, s.e ^^^ t.e, s.f ^^^ t.f, s.g ^^^ t.g,
    s.h ^^^ t.h⟩

/-- The exclusive or of `sum` and the next `count` links of the chain that goes on from `link`. -/
def chain (k : Hmac.Key) : Nat → State → State → State
  | 0, _, sum => sum
  | count + 1, link, sum =>
    let next := k.codeOfDigest link
    chain k count next (add sum next)

/-- Block number `i` of the row, counted from one. -/
def block (k : Hmac.Key) (salt : Bytes) (iterations i : Nat) : Bytes :=
  let first := k.code (salt ++ Bytes.ofNatBE 4 i)
  (chain k (iterations - 1) first first).bytes

/-- The first `length` bytes of the row of blocks. -/
def derive (password salt : Bytes) (iterations length : Nat) : Bytes :=
  let k := Hmac.Key.ofBytes password
  ((List.range ((length + 63) / 64)).flatMap fun i => block k salt iterations (i + 1)).take length

end SealedMetadata.Pbkdf2
