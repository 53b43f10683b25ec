import SealedMetadata.Bytes.Hex
import SealedMetadata.Hash.Md2
import SealedMetadata.Hash.Md4
import SealedMetadata.Hash.Md5
import SealedMetadata.Hash.Sha1
import SealedMetadata.Hash.Sha256
import SealedMetadata.Hash.Sha512

/-!
Unsalted fingerprints of old accounts and links: chains of digests in which each one is taken of
the hexadecimal text of the one before.
-/

namespace SealedMetadata.Fingerprint

/-- The digest of the hexadecimal text of a digest. -/
def hexThen (hash : Bytes → Bytes) (b : Bytes) : Bytes := hash (Hex.encodeBytes b)

/-- The short fingerprint: SHA-1 after SHA-512. -/
def short (b : Bytes) : String := Hex.encode (hexThen Sha1.digest (Sha512.digest b))

/-- The SHA family's chain, from SHA-1 up to SHA-512. -/
def shaChain (b : Bytes) : Bytes :=
  hexThen Sha512.digest (hexThen Sha512.digest384 (hexThen Sha256.digest (Sha1.digest b)))

/-- The MD family's chain, closed by SHA-512. -/
def mdChain (b : Bytes) : Bytes :=
  hexThen Sha512.digest (hexThen Md5.digest (hexThen Md4.digest (Md2.digest b)))

/-- The long fingerprint: both chains, one after the other. -/
def long (b : Bytes) : String := Hex.encode (shaChain b) ++ Hex.encode (mdChain b)

@[simp] theorem length_short (b : Bytes) : (short b).length = 40 := by
  rw [short, Hex.length_encode, hexThen, Sha1.length_digest]

@[simp] theorem length_long (b : Bytes) : (long b).length = 256 := by
  have hsha : (shaChain b).length = 64 := Sha512.length_digest _
  have hmd : (mdChain b).length = 64 := Sha512.length_digest _
  rw [long, String.length_append, Hex.length_encode, Hex.length_encode, hsha, hmd]

end SealedMetadata.Fingerprint
