import SealedMetadata.Action
import SealedMetadata.Kdf.Fingerprint
import SealedMetadata.Kdf.PasswordKey

/-!
Login credentials: the master key stays with the user and the sent password goes to the service.
Old accounts have fingerprints of the password for both, newer ones two halves of a derived key.
-/

namespace SealedMetadata

/-- How an account's credentials come from its password. -/
inductive AuthVersion
  | fingerprint
  | derived
  deriving DecidableEq

namespace AuthVersion

def number : AuthVersion → Nat
  | fingerprint => 1
  | derived => 2

/-- The hexadecimal text of credential bytes: fingerprints are such text already. -/
def hexOf (v : AuthVersion) (b : Bytes) : Except Failure String :=
  match v with
  | fingerprint =>
    match Utf8.decodeAscii? b with
    | some s => .ok s
    | none => .error .undecodable
  | derived => .ok (Hex.encode b)

end AuthVersion

/-- The two halves of a user's credentials. -/
structure Credentials where
  masterKey : Bytes
  sentPassword : Bytes
  authVersion : AuthVersion
  deriving DecidableEq

namespace Credentials

def ofPassword (password : Secret) : Credentials :=
  ⟨Utf8.encode (Fingerprint.short password.content),
    Utf8.encode (Fingerprint.long password.content), .fingerprint⟩

/-- The credentials in a derived key: its first half, and the digest of the hexadecimal text of
its second half. -/
def ofDerivedKey (key : Bytes) : Except Failure Credentials :=
  if key.length = 64 then
    .ok ⟨key.take 32, Sha512.digest (Hex.encodeBytes (key.drop 32)), .derived⟩
  else .error (.keyLength [64] key.length)

def ofPasswordAndSalt (password salt : Secret) : Except Failure Credentials :=
  ofDerivedKey (PasswordKey.derive512 password salt PasswordKey.defaultIterations)

/-- The credentials for the authentication version asked for; the second one needs a salt. A salt
or password that cannot be read does no harm where it is not needed. -/
def forVersionUnread (version : RequestedVersion) (password : UnreadSecret)
    (salt : Except Failure (Option Secret)) : Action Credentials := do
  Action.log (.derivation version.shown)
  if version.number? = some 1 then
    let p ← Action.ofExcept password
    return ofPassword p
  else if version.number? = some 2 then
    match ← Action.ofExcept salt with
    | some s =>
      if s.isEmpty then Action.fail (.malformed .saltMissing)
      else
        let p ← Action.ofExcept password
        Action.ofExcept (ofPasswordAndSalt p s)
    | none => Action.fail (.malformed .saltMissing)
  else Action.fail (.unsupportedVersion version.shown)

def forVersion (version : RequestedVersion) (password : Secret)
    (salt : Except Failure (Option Secret)) : Action Credentials :=
  forVersionUnread version (.ok password) salt

theorem forVersion_eq (version : RequestedVersion) (password : Secret)
    (salt : Except Failure (Option Secret)) :
    forVersion version password salt = Action.log (.derivation version.shown) >>= fun _ =>
      if version.number? = some 1 then pure (ofPassword password)
      else if version.number? = some 2 then
        Action.ofExcept salt >>= fun salt =>
          match salt with
          | some s =>
            if s.isEmpty then Action.fail (.malformed .saltMissing)
            else Action.ofExcept (ofPasswordAndSalt password s)
          | none => Action.fail (.malformed .saltMissing)
      else Action.fail (.unsupportedVersion version.shown) := rfl

def masterKeyHex (c : Credentials) : Except Failure String := c.authVersion.hexOf c.masterKey

def sentPasswordHex (c : Credentials) : Except Failure String := c.authVersion.hexOf c.sentPassword

end Credentials

end SealedMetadata
