import SealedMetadata.Cli.Options
import SealedMetadata.Session.Object

/-!
The operations of a session, by the part of the library that they call. An argument that may be
absent is optional, and its default is the library's.
-/

namespace SealedMetadata.Session

inductive HashName
  | sha1
  | sha256
  | sha384
  | sha512
  | md5
  | md4
  | md2
  deriving DecidableEq

/-- What can be asked of a sealed value. -/
inductive SecretQuery
  | identity
  | content
  | reveal
  | revealBytes
  | hex
  | size
  | nonEmpty
  | quoted
  | display
  | wipe
  | hash
  | serialize
  | scope
  deriving DecidableEq

inductive KeyOperation
  | hashHex (name : HashName) (value : Arg)
  | sha512Bytes (value : Arg)
  | randomBytes (length : Option Int)
  | randomAlphanumeric (length : Int)
  | fingerprint (value : Arg)
  | longFingerprint (password : Arg)
  | derive (password salt : Arg) (iterations length : Int)
  | derive256 (password salt : Arg) (iterations : Int)
  | derive512 (password salt : Arg) (iterations : Int)
  | keyAndVector (password : Arg) (salt : Option Arg) (iterations keyLength ivLength : Option Int)

inductive BlobOperation
  | coerce (version : Arg)
  | marker (version : Arg)
  | sniff (data : Arg)
  | encryptSalted (data password : Arg) (salt : Option Arg)
  | decryptSalted (data password : Arg)
  | encryptAuthenticated (data password : Arg)
  | decryptAuthenticated (data password : Arg)
  | encrypt (data key version : Arg) (salt : Option Arg)
  | decrypt (data key : Arg)
  | encryptText (data key version : Arg)
  | decryptText (data key : Arg)
  | decryptWithAny (data keys : Arg)
  | decryptTextWithAny (data keys : Arg)
  | decryptMasterKeys (data : Option Arg) (key : Arg)
  | encryptMasterKeys (keys key : Arg) (version : Option Arg)
  | decryptPrivateKey (data : Option Arg) (key : Arg)
  | newLinkKey (key : Arg) (version : Option Arg)
  | hashLinkPassword (password : Arg)
  | noPassword

inductive CredentialOperation
  | ofPassword (password : Arg)
  | ofPasswordAndSalt (password salt : Arg)
  | ofDerivedKey (key : Arg)
  | forVersion (version password : Arg) (salt : Option Arg)
  | identity (credentials : Arg)
  | wipe (credentials : Arg)
  | quoted (credentials : Arg)
  | hash (credentials : Arg)
  | scope (credentials : Arg)

inductive ModelOperation
  | quoted (model : Arg)
  | toFields (model : Arg)
  | newAuthInfo (email version salt : Option Arg)
  | readAuthInfo (data : Arg)
  | deriveCredentials (model password : Arg)
  | newLoginRequest (email password : Arg) (twoFactorKey version : Option Arg)
  | loginRequestFor (email credentials : Arg) (twoFactorKey : Option Arg)
  | readLoginResponse (data : Arg)
  | responseMasterKeys (model key : Arg)
  | responsePrivateKey (model key : Arg)
  | newLinkEdit (apiKey uuid : Arg) (button expiration password : Option Arg)
  | linkEditOf (apiKey : Arg) (button expiration state : Option Arg) (hashed salt uuid : Arg)
  | newLinkAdd (apiKey uuid metadata parent : Arg) (linkType : Option Arg) (key : Arg)
      (linkKey version : Option Arg)
  | linkAddOf (apiKey keyMetadata metadata parent : Arg) (linkType : Option Arg) (uuid : Arg)
      (linkUuid button expiration : Option Arg)
  | readLinkStatus (data : Arg)
  | hasPassword (model : Arg)
  | readLinkKey (model keys : Arg)

/-- One operation of a session. -/
inductive Operation
  | key (o : KeyOperation)
  | blob (o : BlobOperation)
  | secret (query : SecretQuery) (value : Arg)
  | equal (first second : Arg)
  | credential (o : CredentialOperation)
  | model (o : ModelOperation)
  | settings (env : Settings.Environment)
  | failure (kind : String) (arguments : Arg)
  | command (separators : Cli.Separators) (arguments answers : List Cli.RawText)
      (env : Settings.Environment)

end SealedMetadata.Session
