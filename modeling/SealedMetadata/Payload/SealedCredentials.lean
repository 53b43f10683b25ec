import SealedMetadata.Account.Credentials
import SealedMetadata.Value
import SealedMetadata.Vaulted

/-!
Credentials whose two halves are sealed values.
-/

namespace SealedMetadata

/-- Login credentials in sealed buffers. -/
structure SealedCredentials where
  masterKey : Sealed
  sentPassword : Sealed
  authVersion : AuthVersion

namespace SealedCredentials

/-- Credentials put into new buffers. -/
def keep (c : Credentials) : Vaulted SealedCredentials := do
  let masterKey ← Vaulted.keep .bytes c.masterKey
  let sentPassword ← Vaulted.keep .bytes c.sentPassword
  return ⟨masterKey, sentPassword, c.authVersion⟩

/-- The credentials with the present contents of their buffers. -/
def contents (v : Vault) (c : SealedCredentials) : Credentials :=
  ⟨v.content c.masterKey, v.content c.sentPassword, c.authVersion⟩

/-- A vault with both buffers of credentials emptied. -/
def emptied (v : Vault) (c : SealedCredentials) : Vault :=
  (v.wipe c.masterKey).wipe c.sentPassword

def wipe (c : SealedCredentials) : Vaulted Unit := modify fun v => c.emptied v

/-- An operation in the scope of credentials, which are wiped when the scope is left. -/
def within {α : Type} (c : SealedCredentials) (x : Vaulted α) : Vaulted α :=
  x.ensuring fun v => c.emptied v

def quoted (c : SealedCredentials) : String :=
  "SentPasswordWithMasterKey(auth_version=" ++ toString c.authVersion.number ++
    ", m_key=***, sent_password=***)"

end SealedCredentials

end SealedMetadata
