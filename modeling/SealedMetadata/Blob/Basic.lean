import SealedMetadata.Blob.Authenticated
import SealedMetadata.Blob.Salted
import SealedMetadata.Vaulted

/-!
Encrypted metadata as blobs of either format, and as text. The format of a blob is read off its
first bytes. In text a blob of the first format is base64 as a whole; the second format is ASCII
already.
-/

namespace SealedMetadata.Blob

/-- How a blob of the first format begins once it is encoded in base64. -/
def encodedMarker : Bytes := "U2FsdGVk".toList.map fun c => c.toNat.toUInt8

def isDigit (b : UInt8) : Bool := 48 ≤ b && b ≤ 57

/-- The number that ASCII digits spell. -/
def markerNumber (marker : Bytes) : Nat := marker.foldl (fun n b => 10 * n + (b.toNat - 48)) 0

/-- The format of a blob: the first one if it begins with `Salted__`, else the one whose number
its first three bytes spell. -/
def sniff (blob : Bytes) : Except Failure Version :=
  let head := blob.take 8
  if head = Salted.marker then .ok .cbc
  else if head = encodedMarker then .error (.malformed .encodedTwice)
  else if blob.length < 3 then .error (.malformed .shorterThanMarker)
  else
    let marker := blob.take 3
    if marker.all isDigit then Version.ofRequest (.ofInt (markerNumber marker))
    else .error (.invalidMarker marker)

/-- The blob of a text in the version asked for. The salt serves the first format only. -/
def encryptUnread (text : Bytes) (key : UnreadSecret) (version : RequestedVersion)
    (salt : Option Bytes) : Action Bytes := do
  let v ← Action.ofExcept (Version.ofRequest version)
  Action.log (.encrypting text.length v)
  match v with
  | .cbc => Salted.encryptUnread key salt text
  | .gcm => return v.marker ++ (← Authenticated.encryptUnread key text)

def encrypt (text : Bytes) (key : Secret) (version : RequestedVersion) (salt : Option Bytes) :
    Action Bytes :=
  encryptUnread text (.ok key) version salt

def decryptAsUnread (v : Version) (key : UnreadSecret) (blob : Bytes) : Except Failure Bytes :=
  match v with
  | .cbc => Salted.decryptUnread key blob
  | .gcm => Authenticated.decryptUnread key (blob.drop 3)

def decryptAs (v : Version) (key : Secret) (blob : Bytes) : Except Failure Bytes :=
  decryptAsUnread v (.ok key) blob

def decryptUnread (blob : Bytes) (key : UnreadSecret) : Action Bytes := do
  let v ← Action.ofExcept (sniff blob)
  Action.log (.decrypting blob.length v)
  Action.ofExcept (decryptAsUnread v key blob)

def decrypt (blob : Bytes) (key : Secret) : Action Bytes := decryptUnread blob (.ok key)

def asciiText (b : Bytes) : Except Failure String :=
  match Utf8.decodeAscii? b with
  | some s => .ok s
  | none => .error .undecodable

def textForm (v : Version) (blob : Bytes) : Except Failure String :=
  match v with
  | .cbc => asciiText (Base64.encode blob)
  | .gcm => asciiText blob

def encryptTextUnread (text key : UnreadSecret) (version : RequestedVersion) : Action String := do
  let text ← Action.ofExcept text
  let blob ← encryptUnread text.content key version none
  let v ← Action.ofExcept (Version.ofRequest version)
  Action.ofExcept (textForm v blob)

def encryptText (text key : Secret) (version : RequestedVersion) : Action String :=
  encryptTextUnread (.ok text) (.ok key) version

/-- The blob of a field: base64 is undone where the field begins like an encoded blob. -/
def ofField (field : Bytes) : Except Failure Bytes :=
  if field.take 8 = encodedMarker then
    match Base64.decode? field with
    | some blob => .ok blob
    | none => .error (.malformed .fieldNotBase64)
  else .ok field

def plainText (b : Bytes) : Except Failure String :=
  match Utf8.decode? b with
  | some s => .ok s
  | none => .error (.malformed .contentNotUtf8)

/-- The text in a field, which holds a blob or its text form. -/
def decryptTextUnread (field key : UnreadSecret) : Action String := do
  let field ← Action.ofExcept field
  let blob ← Action.ofExcept (ofField field.content)
  let bytes ← decryptUnread blob key
  Action.ofExcept (plainText bytes)

def decryptText (field key : Secret) : Action String := decryptTextUnread (.ok field) (.ok key)

/-- The text in a field, in a buffer of its own. -/
def decryptSealed (field key : UnreadSecret) : Vaulted Sealed := do
  let text ← Vaulted.perform (decryptTextUnread field key)
  Vaulted.keep .text (Utf8.encode text)

section Read

variable (text field key : Secret) (blob plain : Bytes)

theorem encrypt_eq (version : RequestedVersion) (salt : Option Bytes) :
    encrypt plain key version salt = Action.ofExcept (Version.ofRequest version) >>= fun v =>
      Action.log (.encrypting plain.length v) >>= fun _ =>
        match v with
        | .cbc => Salted.encrypt key salt plain
        | .gcm => Authenticated.encrypt key plain >>= fun body => pure (v.marker ++ body) := rfl

theorem decrypt_eq : decrypt blob key = Action.ofExcept (sniff blob) >>= fun v =>
    Action.log (.decrypting blob.length v) >>= fun _ =>
      Action.ofExcept (decryptAs v key blob) := rfl

theorem encryptText_eq (version : RequestedVersion) :
    encryptText text key version = encrypt text.content key version none >>= fun blob =>
      Action.ofExcept (Version.ofRequest version) >>= fun v =>
        Action.ofExcept (textForm v blob) := rfl

theorem decryptText_eq : decryptText field key = Action.ofExcept (ofField field.content) >>=
    fun blob => decrypt blob key >>= fun bytes => Action.ofExcept (plainText bytes) := rfl

theorem decryptSealed_eq : decryptSealed (.ok field) (.ok key) =
    Vaulted.perform (decryptText field key) >>= fun text =>
      Vaulted.keep .text (Utf8.encode text) := rfl

end Read

end SealedMetadata.Blob
