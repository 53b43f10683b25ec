import SealedMetadata.Hash.Sha512

/-!
HMAC with SHA-512. A key is kept as the two hash states that follow its first block, so that a
message costs no more than its own blocks and one more.
-/

namespace SealedMetadata.Hmac

open Sha512 (State Window)

/-- The hash states after the inner and the outer form of the key. -/
structure Key where
  (inner outer : State)

/-- The key as one block: a long key is replaced by its digest, and zeros follow. -/
def keyBlock (key : Bytes) : Bytes :=
  let k := if key.length ≤ 128 then key else Sha512.digest key
  k ++ List.replicate (128 - k.length) 0

/-- The state after the key's block with each byte added to `mask`. -/
def maskedState (mask : UInt8) (key : Bytes) : State :=
  Sha512.absorb Sha512.initial (Bytes.words64BE ((keyBlock key).map (· ^^^ mask)))

def Key.ofBytes (key : Bytes) : Key := ⟨maskedState 0x36 key, maskedState 0x5c key⟩

/-- The window of a digest that ends a message of one block before it. -/
def lastWindow (s : State) : Window :=
  -- 1536 bits: a block of 128 bytes and a digest of 64
  ⟨s.a, s.b, s.c, s.d, s.e, s.f, s.g, s.h, 0x8000000000000000, 0, 0, 0, 0, 0, 0, 1536⟩

def Key.code (k : Key) (m : Bytes) : State :=
  Sha512.compress k.outer (lastWindow (Sha512.finish k.inner 128 m))

/-- The code of a digest taken as the message. -/
def Key.codeOfDigest (k : Key) (s : State) : State :=
  Sha512.compress k.outer (lastWindow (Sha512.compress k.inner (lastWindow s)))

end SealedMetadata.Hmac
