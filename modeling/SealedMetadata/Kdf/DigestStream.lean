import SealedMetadata.Bytes.Slice
import SealedMetadata.Hash.Md5

/-!
Key material drawn from a stream of MD5 digests: each digest is taken of the one before it
together with the password and the salt, and hashed again for every further iteration.
-/

namespace SealedMetadata.DigestStream

/-- The digest after so many further rounds, `count` of them. -/
def rehash : Nat → Bytes → Bytes
  | 0, d => d
  | count + 1, d => rehash count (Md5.digest d)

/-- The digest that follows `last` in the stream. -/
def next (seed : Bytes) (iterations : Nat) (last : Bytes) : Bytes :=
  rehash (iterations - 1) (Md5.digest (last ++ seed))

/-- The first `count` digests that follow `last`, joined. -/
def bytes (seed : Bytes) (iterations : Nat) : Nat → Bytes → Bytes
  | 0, _ => []
  | count + 1, last =>
    let d := next seed iterations last
    d ++ bytes seed iterations count d

/-- The number of digests that hold at least `needed` bytes. -/
def count (needed : Int) : Nat := (needed.toNat + 15) / 16

/-- A key and an initial vector: the stream's first `keyLength` bytes and the `ivLength` bytes
after them. A length below zero counts from the end of the whole digests that were drawn. -/
def keyAndVector (password salt : Bytes) (iterations : Nat) (keyLength ivLength : Int) :
    Bytes × Bytes :=
  let needed := keyLength + ivLength
  let stream := bytes (password ++ salt) iterations (count needed) []
  (Bytes.slice stream 0 keyLength, Bytes.slice stream keyLength needed)

end SealedMetadata.DigestStream
