import SealedMetadata.Bytes

/-!
The padding that the iterated hash functions share: a one bit, zeros, and the message's length
in bits, so that the whole fills a number of blocks.
-/

namespace SealedMetadata.Hash

/-- The number of zero bytes between the one bit and the length field of `width` bytes. -/
def zeroCount (block width total : Nat) : Nat :=
  (block - (total + 1 + width) % block) % block

/-- What ends a message of `total` bytes, `field` being its length field of `width` bytes. -/
def ending (block width : Nat) (field : Nat → Bytes) (total : Nat) : Bytes :=
  0x80 :: (List.replicate (zeroCount block width total) 0 ++ field (8 * total))

end SealedMetadata.Hash
