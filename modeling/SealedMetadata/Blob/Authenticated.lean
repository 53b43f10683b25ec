import SealedMetadata.Alphanumeric
import SealedMetadata.Bytes.Base64
import SealedMetadata.Cipher.Gcm
import SealedMetadata.Kdf.PasswordKey

/-!
The second format of encrypted metadata, after its marker: a nonce of twelve letters and digits,
and the encrypted text with its tag in base64. The cipher's key is derived from the key, salted
with itself, in one iteration.
-/

namespace SealedMetadata.Blob.Authenticated

def nonceLength : Nat := 12

def cipherKey (key : Secret) : Bytes := PasswordKey.derive256 key key 1

/-- The body of a text under a nonce. -/
def encryptWith (key : Secret) (nonce text : Bytes) : Bytes :=
  nonce ++ Base64.encode (Gcm.encrypt (cipherKey key) nonce text)

/-- The body of a text, under a random nonce. The key is read first. -/
def encryptUnread (key : UnreadSecret) (text : Bytes) : Action Bytes := do
  let key ← Action.ofExcept key
  let nonce ← Alphanumeric.draw nonceLength
  return encryptWith key nonce text

def encrypt (key : Secret) (text : Bytes) : Action Bytes := encryptUnread (.ok key) text

/-- The text of a body. Any twelve bytes are a nonce. The key is read once the rest is known to be
base64. -/
def decryptUnread (key : UnreadSecret) (body : Bytes) : Except Failure Bytes :=
  if body.length ≤ nonceLength then .error (.malformed .shorterThanNonce)
  else
    match Base64.decode? (body.drop nonceLength) with
    | none => .error (.decryptionFailed .base64)
    | some encrypted => do
      let key ← key
      match Gcm.decrypt? (cipherKey key) (body.take nonceLength) encrypted with
      | some text => .ok text
      | none => .error (.decryptionFailed .authentication)

def decrypt (key : Secret) (body : Bytes) : Except Failure Bytes := decryptUnread (.ok key) body

theorem encrypt_eq (key : Secret) (text : Bytes) : encrypt key text =
    Alphanumeric.draw nonceLength >>= fun nonce => pure (encryptWith key nonce text) := rfl

theorem decrypt_eq (key : Secret) (body : Bytes) :
    decrypt key body =
      if body.length ≤ nonceLength then .error (.malformed .shorterThanNonce)
      else
        match Base64.decode? (body.drop nonceLength) with
        | none => .error (.decryptionFailed .base64)
        | some encrypted =>
          match Gcm.decrypt? (cipherKey key) (body.take nonceLength) encrypted with
          | some text => .ok text
          | none => .error (.decryptionFailed .authentication) := rfl

end SealedMetadata.Blob.Authenticated
