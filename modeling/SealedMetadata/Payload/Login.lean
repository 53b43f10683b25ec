import SealedMetadata.Account.MasterKeys
import SealedMetadata.Account.PrivateKey
import SealedMetadata.Payload.SealedCredentials

/-!
The login request and what the service answers.
-/

namespace SealedMetadata

/-- The bytes that a value gives to a sealed buffer. -/
def Value.sealable (v : Vault) (value : Value) : Except Failure Bytes :=
  (value.toSecret v "byte").map Secret.content

/-- A login request. The password is the derived one, never the user's own. -/
structure LoginRequest where
  email : Value
  password : Sealed
  twoFactorKey : Value
  authVersion : Value

namespace LoginRequest

/-- What stands for an absent second factor. -/
def noTwoFactorKey : String := "XXXXXX"

/-- A request with its own copy of the password. -/
def new (email password twoFactorKey authVersion : Value) : Vaulted LoginRequest := do
  let v ← get
  let content ← Vaulted.perform (Action.ofExcept (password.sealable v))
  let sealedPassword ← Vaulted.keep .text content
  let key := if twoFactorKey.countsAsTrue v then twoFactorKey else .text noTwoFactorKey
  return ⟨email, sealedPassword, key, authVersion⟩

/-- The request that goes with credentials. -/
def forCredentials (email : Value) (c : SealedCredentials) (twoFactorKey : Value) :
    Vaulted LoginRequest := do
  let password ← Vaulted.inspect fun v => (c.contents v).sentPasswordHex
  new email (.text password) twoFactorKey (.int c.authVersion.number)

def toFields (v : Vault) (m : LoginRequest) : Except Failure Value := do
  let password ← m.password.text v
  return .record [("email", m.email), ("password", .text password),
    ("twoFactorKey", m.twoFactorKey), ("authVersion", m.authVersion)]

def quoted (v : Vault) (m : LoginRequest) : String :=
  "LoginRequestPayload(email=" ++ m.email.quoted v ++ ", password=***, auth_version=" ++
    m.authVersion.quoted v ++ ")"

def attributes (m : LoginRequest) : List (String × Value) :=
  [("email", m.email), ("password", .sealed m.password), ("two_factor_key", m.twoFactorKey),
    ("auth_version", m.authVersion)]

end LoginRequest

/-- The answer to a login: the user's key for the service, and two fields that the last master
key decrypts. -/
structure LoginResponse where
  apiKey : Sealed
  masterKeys : Value
  privateKey : Value

namespace LoginResponse

/-- The record of an answer. -/
def ofFields (data : Value) : Vaulted LoginResponse := do
  let v ← get
  let answer ← Vaulted.perform (Action.ofExcept (do
    let fields ← match data.fields? with
      | some fields => .ok fields
      | none => .error .wrongType
    let key ← match fields.lookup "apiKey" with
      | some value => .ok value
      | none => .error (.missingField "apiKey")
    let content ← key.sealable v
    return (content, fields)))
  let apiKey ← Vaulted.keep .text answer.1
  return ⟨apiKey, fieldOrNone answer.2 "masterKeys", fieldOrNone answer.2 "privateKey"⟩

/-- The user's master keys, each in a buffer of its own. -/
def decryptMasterKeys (m : LoginResponse) (key : Secret) : Vaulted (List Sealed) := do
  let field ← Vaulted.inspect fun v => m.masterKeys.toSecret? v
  MasterKeys.readSealed field key

/-- The user's private key in a buffer. -/
def decryptPrivateKey (m : LoginResponse) (key : Secret) : Vaulted Sealed := do
  let field ← Vaulted.inspect fun v => m.privateKey.toSecret? v
  PrivateKey.readSealed field key

def quoted : String := "LoginResponseData(api_key=***)"

def attributes (m : LoginResponse) : List (String × Value) :=
  [("api_key", .sealed m.apiKey), ("master_keys_metadata", m.masterKeys),
    ("private_key_metadata", m.privateKey)]

end LoginResponse

end SealedMetadata
