import SealedMetadata.Blob.AnyKey
import SealedMetadata.Link.Secrets
import SealedMetadata.Payload.Choice

/-!
What the service tells about an item's public link.
-/

namespace SealedMetadata

/-- The state of a link. All but the first part is absent where there is no link. -/
structure LinkStatus where
  linkExists : Bool
  linkUuid : Option Uuid
  keyMetadata : Value
  expiration : Value
  expirationText : Option Expiration
  downloadButton : Option DownloadButton
  passwordHashed : Value

namespace LinkStatus

/-- The identifier in a field, none if the field does not count as true. -/
def readUuid (v : Vault) (value : Value) : Except Failure (Option Uuid) :=
  if !value.countsAsTrue v then .ok none
  else
    match value with
    | .text s => (Uuid.ofText s).map some
    | .bytes _ => .error .wrongType
    | _ => .error .missingAttribute

/-- The life time in a field, none if the field does not count as true. -/
def readExpiration (v : Vault) (value : Value) : Except Failure (Option Expiration) :=
  if value.countsAsTrue v then (Choice.ofValue v value).map some else .ok none

/-- The state of the button in a field: off for zero, on for other numbers. -/
def readButton (value : Value) : Except Failure (Option DownloadButton) :=
  match value with
  | .none => .ok none
  | value => value.toInt.map fun n => some (if n = 0 then .disable else .enable)

/-- The record of an answer. The identifier is read first, then the life time, then the
button. -/
def ofFields (v : Vault) (data : Value) : Except Failure LinkStatus := do
  let fields ← match data.fields? with
    | some fields => .ok fields
    | none => .error .missingAttribute
  let field := fieldOrNone fields
  let linkUuid ← readUuid v (field "uuid")
  let expirationText ← readExpiration v (field "expirationText")
  let downloadButton ← readButton (field "downloadBtn")
  return ⟨(field "exists").countsAsTrue v, linkUuid, (field "key").orNone v, field "expiration",
    expirationText, downloadButton, (field "password").orNone v⟩

/-- Whether a link asks for a password: its hash is there and is not the one that stands for
none. -/
def hasPassword (v : Vault) (m : LinkStatus) : Bool :=
  match m.passwordHashed with
  | .none => false
  | hashed => !hashed.same v (.text Link.noPasswordHash)

/-- The link's key under the first master key that decrypts it, none if there is no key. -/
def decryptLinkKey (v : Vault) (m : LinkStatus) (keys : List Secret) : Action (Option String) :=
  match m.keyMetadata with
  | .none => return none
  | field => do
    if keys.isEmpty then Action.fail (.allKeysFailed 0)
    else
      let secret ← Action.ofExcept (field.toSecret v "bytes")
      let search ← Blob.decryptTextWithAny secret keys
      let key ← Action.ofExcept search.result
      return some key

/-- The value of a choice that may be absent. -/
def choiceValue {α : Type} [Choice α] : Option α → Value
  | none => .none
  | some a => Choice.toValue a

def uuidValue (m : LinkStatus) : Value :=
  match m.linkUuid with
  | none => .none
  | some u => .uuid u

def quoted (v : Vault) (m : LinkStatus) : String :=
  "LinkStatusResponseData(exists=" ++ Value.boolText m.linkExists ++ ", link_uuid=" ++
    m.uuidValue.quoted v ++ ")"

def attributes (m : LinkStatus) : List (String × Value) :=
  [("exists", .bool m.linkExists), ("link_uuid", m.uuidValue), ("key_metadata", m.keyMetadata),
    ("expiration", m.expiration), ("expiration_text", choiceValue m.expirationText),
    ("download_btn", choiceValue m.downloadButton), ("password_hashed", m.passwordHashed)]

end LinkStatus

end SealedMetadata
