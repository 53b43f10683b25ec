import SealedMetadata.Payload.LinkEdit
import SealedMetadata.Settings

/-!
The request that creates a public link. Links are created without a password.
-/

namespace SealedMetadata

/-- A new link to an item: the item's encrypted metadata and the encrypted link key. -/
structure LinkAdd where
  apiKey : Sealed
  downloadButton : DownloadButton
  expiration : Expiration
  keyMetadata : Value
  linkUuid : Value
  metadata : Value
  parent : Value
  linkType : ItemKind
  uuid : Value

namespace LinkAdd

/-- A request from its parts, with its own copy of the service key. A link without an identifier
is given a random one. -/
def ofParts (apiKey keyMetadata metadata parent : Value) (linkType : ItemKind)
    (uuid linkUuid : Value) (downloadButton : DownloadButton) (expiration : Expiration) :
    Vaulted LinkAdd := do
  let content ← Vaulted.inspect fun v => apiKey.sealable v
  let key ← Vaulted.keep .text content
  let link ← match linkUuid with
    | .none => Value.uuid <$> Vaulted.perform Uuid.draw
    | given => pure given
  return ⟨key, downloadButton, expiration, keyMetadata, link, metadata, parent, linkType, uuid⟩

/-- The field with the link's key: the given one, or a random one. -/
def keyField (linkKey : Option Secret) (masterKey : Secret) (version : RequestedVersion) :
    Action String :=
  match linkKey with
  | none => do
    let made ← Link.newKey masterKey version
    return made.2
  | some key => Blob.encryptText key masterKey version

/-- A request whose link key is encrypted with the last master key, in the version given or the
default one. -/
def new (apiKey uuid metadata parent : Value) (linkType : ItemKind) (masterKey : Secret)
    (linkKey : Option Secret) (version : Option RequestedVersion) : Vaulted LinkAdd := do
  let field ← Vaulted.perform
    (keyField linkKey masterKey (version.getD Settings.default.metadataVersion.request))
  ofParts apiKey (.text field) metadata parent linkType uuid .none .enable .never

def toFields (v : Vault) (m : LinkAdd) : Except Failure Value := do
  let key ← m.apiKey.text v
  return .record [("apiKey", .text key), ("downloadBtn", .text (Choice.text m.downloadButton)),
    ("expiration", .text (Choice.text m.expiration)), ("key", m.keyMetadata),
    ("linkUUID", .text (m.linkUuid.display v)), ("metadata", m.metadata),
    ("parent", .text (m.parent.display v)), ("password", .text (Choice.text PasswordState.empty)),
    ("passwordHashed", .text Link.noPasswordHash), ("type", .text (Choice.text m.linkType)),
    ("uuid", .text (m.uuid.display v))]

def quoted (v : Vault) (m : LinkAdd) : String :=
  "LinkAddRequestPayload(link_uuid=" ++ m.linkUuid.quoted v ++ ", uuid=" ++ m.uuid.quoted v ++ ")"

def attributes (m : LinkAdd) : List (String × Value) :=
  [("api_key", .sealed m.apiKey), ("download_btn", Choice.toValue m.downloadButton),
    ("expiration", Choice.toValue m.expiration), ("key_metadata", m.keyMetadata),
    ("link_uuid", m.linkUuid), ("metadata", m.metadata), ("parent", m.parent),
    ("password", Choice.toValue PasswordState.empty),
    ("password_hashed", .text Link.noPasswordHash), ("link_type", Choice.toValue m.linkType),
    ("uuid", m.uuid)]

end LinkAdd

end SealedMetadata
