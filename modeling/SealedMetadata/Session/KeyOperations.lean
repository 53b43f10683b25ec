import SealedMetadata.Alphanumeric
import SealedMetadata.Kdf.Fingerprint
import SealedMetadata.Session.Operation
import SealedMetadata.Session.Reply

/-!
Operations on plain bytes, carried out.
-/

namespace SealedMetadata.Session

def HashName.digest : HashName → Bytes → Bytes
  | sha1 => Sha1.digest
  | sha256 => Sha256.digest
  | sha384 => Sha512.digest384
  | sha512 => Sha512.digest
  | md5 => Md5.digest
  | md4 => Md4.digest
  | md2 => Md2.digest

/-- The bytes that are hashed. Sealed values are refused, so that none is hashed unawares. -/
def hashable : Value → Except Failure Bytes
  | .text s => .ok (Utf8.encode s)
  | .sealed _ => .error .wrongType
  | x => x.toBytes "bytes"

def KeyOperation.run (names : Names) : KeyOperation → Vaulted Reply
  | hashHex name value => do
    let x ← value.evalValue names
    let b ← Vaulted.perform (Action.ofExcept (hashable x))
    return .ofText (Hex.encode (name.digest b))
  | sha512Bytes value => do
    let x ← value.evalValue names
    let b ← Vaulted.perform (Action.ofExcept (hashable x))
    return .ofBytes (Sha512.digest b)
  | randomBytes length => do
    let b ← Vaulted.perform (Action.draw (length.getD 32).toNat)
    return .ofBytes b
  | randomAlphanumeric length => do
    let s ← Vaulted.perform (Alphanumeric.drawText length.toNat)
    return .ofText s
  | fingerprint value => do
    let secret ← value.evalSecret names
    return .ofText (Fingerprint.short secret.content)
  | longFingerprint password => do
    let secret ← password.evalSecret names
    return .ofText (Fingerprint.long secret.content)
  | derive password salt iterations length => do
    let p ← password.evalSecret names
    let s ← salt.evalSecret names
    let b ← Vaulted.perform (Action.ofExcept (PasswordKey.derive p s iterations length))
    return .ofBytes b
  | derive256 password salt iterations => do
    let p ← password.evalSecret names
    let s ← salt.evalSecret names
    return .ofBytes (PasswordKey.derive256 p s iterations)
  | derive512 password salt iterations => do
    let p ← password.evalSecret names
    let s ← salt.evalSecret names
    return .ofBytes (PasswordKey.derive512 p s iterations)
  | keyAndVector password salt iterations keyLength ivLength => do
    let p ← password.evalSecret names
    let s ← evalBytes? names salt
    let kv ← Vaulted.perform (Action.ofExcept
      (PasswordKey.keyAndVector p s (iterations.getD 1) (keyLength.getD 32) (ivLength.getD 16)))
    return .ofValue (.tuple [.bytes kv.1, .bytes kv.2])

end SealedMetadata.Session
