import SealedMetadata.Blob.Basic
import SealedMetadata.Kdf.Fingerprint

/-!
The secrets of a public link: its key, which encrypts what the link shows, and its password.
-/

namespace SealedMetadata.Link

/-- The text that stands for an absent password. -/
def noPassword : String := "empty"

/-- The hash that a link without a password is created with. -/
def noPasswordHash : String := Fingerprint.short (Utf8.encode noPassword)

/-- The hash of a password under a salt: the digest of the hexadecimal text of the whole derived
key. -/
def passwordHash (password : Secret) (salt : Bytes) : String :=
  Hex.encode (Sha512.digest (Hex.encodeBytes
    (PasswordKey.derive512 password (.bytes salt) PasswordKey.defaultIterations)))

/-- The hash of a password under a random salt, and the salt in hexadecimal. The salt is drawn
before the password is read. -/
def hashPasswordUnread (password : UnreadSecret) : Action (String × String) := do
  let salt ← Action.draw 32
  let password ← Action.ofExcept password
  return (passwordHash password salt, Hex.encode salt)

def hashPassword (password : Secret) : Action (String × String) := hashPasswordUnread (.ok password)

theorem hashPassword_eq (password : Secret) : hashPassword password =
    Action.draw 32 >>= fun salt => pure (passwordHash password salt, Hex.encode salt) := rfl

/-- A random link key, and its encrypted text form. -/
def newKey (masterKey : Secret) (version : RequestedVersion) : Action (String × String) := do
  let key ← Alphanumeric.drawText 32
  let field ← Blob.encryptText (.text key) masterKey version
  return (key, field)

end SealedMetadata.Link
