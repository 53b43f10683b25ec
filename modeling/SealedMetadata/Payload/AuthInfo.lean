import SealedMetadata.Payload.SealedCredentials

/-!
What the service tells about an account before login: its authentication version and salt.
-/

namespace SealedMetadata

/-- An account's authentication version, and the salt that the second version needs. -/
structure AuthInfo where
  email : Value
  authVersion : Value
  salt : Value

namespace AuthInfo

/-- The record of an answer. The version is converted to a number, and a salt that does not
count as true is left out. -/
def ofFields (v : Vault) (data : Value) : Except Failure AuthInfo := do
  let fields ← match data.fields? with
    | some fields => .ok fields
    | none => .error .missingAttribute
  let version ← match fields.lookup "authVersion" with
    | some value => value.toInt
    | none => .error (.missingField "authVersion")
  return ⟨(fields.lookup "email").getD (.text ""), .int version,
    (fieldOrNone fields "salt").orNone v⟩

/-- The fields of an answer; an absent salt has none. -/
def toFields (m : AuthInfo) : Value :=
  .record ([("email", m.email), ("authVersion", m.authVersion)] ++
    match m.salt with
    | .none => []
    | salt => [("salt", salt)])

/-- The credentials that a password gives for the account. -/
def derive (m : AuthInfo) (password : Secret) : Vaulted SealedCredentials := do
  let v ← get
  let c ← Vaulted.perform
    (Credentials.forVersion (m.authVersion.requestedAuthVersion v) password (m.salt.toSecret? v))
  SealedCredentials.keep c

def quoted (v : Vault) (m : AuthInfo) : String :=
  "AuthInfoResponseData(email=" ++ m.email.quoted v ++ ", auth_version=" ++
    m.authVersion.quoted v ++ ")"

/-- Whether two records are equal field by field. -/
def same (v : Vault) (m n : AuthInfo) : Bool :=
  m.email.same v n.email && m.authVersion.same v n.authVersion && m.salt.same v n.salt

def attributes (m : AuthInfo) : List (String × Value) :=
  [("email", m.email), ("auth_version", m.authVersion), ("salt", m.salt)]

end AuthInfo

end SealedMetadata
