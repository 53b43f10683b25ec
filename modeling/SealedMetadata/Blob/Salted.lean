import SealedMetadata.Action
import SealedMetadata.Cipher.Cbc
import SealedMetadata.Kdf.PasswordKey

/-!
The first format of encrypted metadata: `Salted__`, a salt of eight bytes, and the text in chained
blocks. Key and initial vector come from the digest stream of the key and the salt.
-/

namespace SealedMetadata.Blob.Salted

/-- The eight bytes that the format begins with. -/
def marker : Bytes := "Salted__".toList.map fun c => c.toNat.toUInt8

def saltLength : Nat := 8

def keyAndVector (key : Secret) (salt : Bytes) : Bytes × Bytes :=
  DigestStream.keyAndVector key.content salt 1 32 16

/-- The blob of a text under a salt. -/
def encryptWith (key : Secret) (salt text : Bytes) : Bytes :=
  let kv := keyAndVector key salt
  marker ++ salt ++ Cbc.encrypt kv.1 kv.2 text

/-- The salt that is used: one of eight bytes as it is, and a random one in place of any other. -/
def chooseSalt (salt : Option Bytes) : Action Bytes :=
  match salt with
  | some s => if s.length = saltLength then pure s else Action.draw saltLength
  | none => Action.draw saltLength

/-- The blob of a text, under a key that is read after the salt is there. -/
def encryptUnread (key : UnreadSecret) (salt : Option Bytes) (text : Bytes) : Action Bytes := do
  let salt ← chooseSalt salt
  let key ← Action.ofExcept key
  return encryptWith key salt text

def encrypt (key : Secret) (salt : Option Bytes) (text : Bytes) : Action Bytes :=
  encryptUnread (.ok key) salt text

/-- The text of a blob. Its first eight bytes are not looked at, and the key is not read for a
blob that is too short. -/
def decryptUnread (key : UnreadSecret) (blob : Bytes) : Except Failure Bytes :=
  if blob.length < marker.length + saltLength then .error (.malformed .shorterThanSalt)
  else do
    let key ← key
    let rest := blob.drop marker.length
    let kv := keyAndVector key (rest.take saltLength)
    match Cbc.decrypt? kv.1 kv.2 (rest.drop saltLength) with
    | some text => .ok text
    | none => .error (.decryptionFailed .chainedBlocks)

def decrypt (key : Secret) (blob : Bytes) : Except Failure Bytes := decryptUnread (.ok key) blob

theorem encrypt_eq (key : Secret) (salt : Option Bytes) (text : Bytes) :
    encrypt key salt text = chooseSalt salt >>= fun salt => pure (encryptWith key salt text) := rfl

theorem decrypt_eq (key : Secret) (blob : Bytes) :
    decrypt key blob =
      if blob.length < marker.length + saltLength then .error (.malformed .shorterThanSalt)
      else
        let rest := blob.drop marker.length
        let kv := keyAndVector key (rest.take saltLength)
        match Cbc.decrypt? kv.1 kv.2 (rest.drop saltLength) with
        | some text => .ok text
        | none => .error (.decryptionFailed .chainedBlocks) := rfl

end SealedMetadata.Blob.Salted
