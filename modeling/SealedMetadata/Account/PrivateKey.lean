import SealedMetadata.Blob.Basic

/-!
The field with a user's private key: base64 inside encrypted metadata. The key's own structure is
not looked at.
-/

namespace SealedMetadata.PrivateKey

def ofBase64 (content : Bytes) : Except Failure Bytes :=
  match Base64.decode? content with
  | some b => .ok b
  | none => .error (.malformed .privateKeyNotBase64)

/-- The bytes in a sealed text, in a buffer of their own. The text is emptied whether it is base64
or not. -/
def decode (text : Sealed) : Vaulted Sealed :=
  Vaulted.within text do
    let b ← Vaulted.inspect fun v => ofBase64 (v.content text)
    Vaulted.keep .bytes b

/-- The key in a field, no bytes if it is absent or empty. -/
def readSealed (field : Option Secret) (key : Secret) : Vaulted Sealed :=
  match field with
  | none => Vaulted.keep .bytes []
  | some f =>
    if f.isEmpty then Vaulted.keep .bytes []
    else do
      let text ← Blob.decryptSealed (.ok f) (.ok key)
      decode text

/-- The bytes of the key in a field. -/
def decrypt (field : Option Secret) (key : Secret) : Action Bytes := do
  let (s, v) ← (readSealed field key).run .empty
  return v.content s

end SealedMetadata.PrivateKey
