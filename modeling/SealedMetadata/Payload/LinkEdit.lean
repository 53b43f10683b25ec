import SealedMetadata.Link.Secrets
import SealedMetadata.Payload.Choice
import SealedMetadata.Payload.Login

/-!
The request that changes a public link.
-/

namespace SealedMetadata

/-- A change of a link: its button, its life time and its password. -/
structure LinkEdit where
  apiKey : Sealed
  downloadButton : DownloadButton
  expiration : Expiration
  password : PasswordState
  passwordHashed : Value
  salt : Value
  uuid : Value

namespace LinkEdit

/-- A request from its parts, with its own copy of the service key. -/
def ofParts (apiKey : Value) (downloadButton : DownloadButton) (expiration : Expiration)
    (password : PasswordState) (passwordHashed salt uuid : Value) : Vaulted LinkEdit := do
  let content ← Vaulted.inspect fun v => apiKey.sealable v
  let key ← Vaulted.keep .text content
  return ⟨key, downloadButton, expiration, password, passwordHashed, salt, uuid⟩

/-- A request whose password is hashed under a random salt. Where there is no password, the text
that stands for none is hashed, so that the service sees the same shape. -/
def new (apiKey uuid : Value) (downloadButton : DownloadButton) (expiration : Expiration)
    (password : Option Secret) : Vaulted LinkEdit := do
  let hashed ← Vaulted.perform (Link.hashPassword (password.getD (.text Link.noPassword)))
  let state := if password.isSome then PasswordState.notEmpty else .empty
  ofParts apiKey downloadButton expiration state (.text hashed.1) (.text hashed.2) uuid

def toFields (v : Vault) (m : LinkEdit) : Except Failure Value := do
  let key ← m.apiKey.text v
  return .record [("apiKey", .text key), ("downloadBtn", .text (Choice.text m.downloadButton)),
    ("expiration", .text (Choice.text m.expiration)), ("password", .text (Choice.text m.password)),
    ("passwordHashed", m.passwordHashed), ("salt", m.salt), ("uuid", .text (m.uuid.display v))]

def quoted (v : Vault) (m : LinkEdit) : String :=
  "LinkEditRequestPayload(uuid=" ++ m.uuid.quoted v ++ ", password=" ++
    Text.quoted (Choice.text m.password) ++ ")"

def attributes (m : LinkEdit) : List (String × Value) :=
  [("api_key", .sealed m.apiKey), ("download_btn", Choice.toValue m.downloadButton),
    ("expiration", Choice.toValue m.expiration), ("password", Choice.toValue m.password),
    ("password_hashed", m.passwordHashed), ("salt", m.salt), ("uuid", m.uuid)]

end LinkEdit

end SealedMetadata
