import SealedMetadata.Text.Quoted
import SealedMetadata.Text.Utf8

/-!
What can go wrong, by cause. The wording of each cause and the name of its kind are given once,
in `Failure.message?` and `FailureKind.name`.
-/

namespace SealedMetadata

/-- Why an input is not of the form it should have. -/
inductive Malformation
  | shorterThanSalt
  | shorterThanNonce
  | shorterThanMarker
  | encodedTwice
  | fieldNotBase64
  | contentNotUtf8
  | masterKeyWithSeparator
  | masterKeyNotUtf8
  | privateKeyNotBase64
  | saltMissing
  deriving DecidableEq

/-- The step at which a blob resisted decryption. -/
inductive Obstacle
  | chainedBlocks
  | base64
  | authentication
  deriving DecidableEq

/-- Why a plain value is refused. -/
inductive InvalidValue
  | iterationCount
  | versionSetting (raw : String)
  | levelSetting (raw : String)
  | number (base : Nat) (shown : String)
  | numberTooLong (digits : Nat)
  | notANumber
  | notAMember (shown : String) (enumeration : String)
  | uuidForm
  | byteRange (container : String)
  | negativeCount
  deriving DecidableEq

/-- The kinds of failure. The first seven are the library's own. -/
inductive FailureKind
  | general
  | unsupportedVersion
  | malformed
  | invalidMarker
  | decryptionFailed
  | allKeysFailed
  | keyLength
  | invalidValue
  | missingField
  | wrongType
  | missingAttribute
  | endOfInput
  | undecodable
  | unencodable
  | overflow
  | outOfMemory
  deriving DecidableEq

inductive Failure
  | unsupportedVersion (shown : String)
  | malformed (why : Malformation)
  | invalidMarker (marker : Bytes)
  | decryptionFailed (obstacle : Obstacle)
  | allKeysFailed (attempts : Nat)
  | keyLength (accepted : List Nat) (actual : Int)
  | invalidValue (why : InvalidValue)
  | missingField (name : String)
  | wrongType
  | notSerializable (type : String)
  | missingAttribute
  | endOfInput
  | undecodable
  | unencodable
  | overflow
  | outOfMemory
  deriving DecidableEq

namespace Malformation

def message : Malformation → String
  | shorterThanSalt => "Encrypted data is too small to contain OpenSSL-compatible salt"
  | shorterThanNonce => "Encrypted data is too small to contain AES GCM IV"
  | shorterThanMarker => "Encrypted data is too small to contain a version marker"
  | encodedTwice => "Given data should not be base64-encoded"
  | fieldNotBase64 => "Encrypted metadata is not valid base64"
  | contentNotUtf8 => "Decrypted metadata is not valid UTF-8"
  | masterKeyWithSeparator => "Master keys cannot contain the '|' separator"
  | masterKeyNotUtf8 => "Master key is not valid UTF-8"
  | privateKeyNotBase64 => "Decrypted private key is not valid base64"
  | saltMissing => "Auth version 2 requires a salt"

end Malformation

namespace Obstacle

def message : Obstacle → String
  | chainedBlocks => "Prefixed AES cannot decipher data"
  | base64 => "Encrypted data is not contained within base64"
  | authentication => "Prefixed AES GCM cannot decipher data"

end Obstacle

namespace InvalidValue

/-- The wording of a refusal; of what is no number two hundred characters are shown at most. -/
def message : InvalidValue → String
  | iterationCount => "iterations must be at least 1"
  | versionSetting raw => "CLOUDMETA_METADATA_VERSION must be 1 or 2; got " ++ Text.quoted raw
  | levelSetting raw => "CLOUDMETA_LOG_LEVEL is not a logging level: " ++ Text.quoted raw
  | number base shown =>
    "invalid literal for int() with base " ++ toString base ++ ": " ++
      String.ofList (shown.toList.take 200)
  | numberTooLong digits =>
    "Exceeds the limit (4300 digits) for integer string conversion: value has " ++
      toString digits ++ " digits; use sys.set_int_max_str_digits() to increase the limit"
  | notANumber => "cannot convert float NaN to integer"
  | notAMember shown enumeration => shown ++ " is not a valid " ++ enumeration
  | uuidForm => "badly formed hexadecimal UUID string"
  | byteRange container => container ++ " must be in range(0, 256)"
  | negativeCount => "negative count"

end InvalidValue

namespace FailureKind

def name : FailureKind → String
  | general => "CloudMetaError"
  | unsupportedVersion => "UnsupportedVersionError"
  | malformed => "MalformedInputError"
  | invalidMarker => "InvalidVersionMarkerError"
  | decryptionFailed => "DecryptionFailedError"
  | allKeysFailed => "AllKeysFailedError"
  | keyLength => "InvalidKeyLengthError"
  | invalidValue => "ValueError"
  | missingField => "KeyError"
  | wrongType => "TypeError"
  | missingAttribute => "AttributeError"
  | endOfInput => "EOFError"
  | undecodable => "UnicodeDecodeError"
  | unencodable => "UnicodeEncodeError"
  | overflow => "OverflowError"
  | outOfMemory => "MemoryError"

/-- The kind that a kind of the library's own is a case of. -/
def parent? : FailureKind → Option FailureKind
  | unsupportedVersion | malformed | decryptionFailed | keyLength => some general
  | invalidMarker => some malformed
  | allKeysFailed => some decryptionFailed
  | _ => none

/-- The kinds that a kind is a case of, nearest first. -/
def ancestors (k : FailureKind) : List FailureKind :=
  match k.parent? with
  | none => []
  | some p => p :: match p.parent? with
    | none => []
    | some q => [q]

/-- Whether a kind is one of the library's own. -/
def isOwn (k : FailureKind) : Bool := k = general || k.ancestors.contains general

end FailureKind

namespace Failure

def kind : Failure → FailureKind
  | unsupportedVersion _ => .unsupportedVersion
  | malformed _ => .malformed
  | invalidMarker _ => .invalidMarker
  | decryptionFailed _ => .decryptionFailed
  | allKeysFailed _ => .allKeysFailed
  | keyLength _ _ => .keyLength
  | invalidValue _ => .invalidValue
  | missingField _ => .missingField
  | wrongType | notSerializable _ => .wrongType
  | missingAttribute => .missingAttribute
  | endOfInput => .endOfInput
  | undecodable => .undecodable
  | unencodable => .unencodable
  | overflow => .overflow
  | outOfMemory => .outOfMemory

/-- Whether another key might do where one met this failure. -/
def isDecryption : Failure → Bool
  | decryptionFailed _ | allKeysFailed _ => true
  | _ => false

def unsupportedVersionText (shown : String) : String := "Unsupported version: " ++ shown

def allKeysFailedText (attempts : String) : String :=
  "Metadata could not be decrypted with any of " ++ attempts ++ " master key(s)"

def keyLengthText (accepted actual : String) : String :=
  "Derived key should be " ++ accepted ++ " bytes long, got " ++ actual

def acceptedLengths : List Nat → String
  | [n] => toString n
  | ns => "(" ++ ", ".intercalate (ns.map toString) ++ ")"

/-- The wording of a failure, for the kinds that have one. -/
def message? : Failure → Option String
  | unsupportedVersion shown => some (unsupportedVersionText shown)
  | malformed why => some why.message
  | invalidMarker marker => some ("Invalid metadata version: " ++ Utf8.decodeLossy marker)
  | decryptionFailed obstacle => some obstacle.message
  | allKeysFailed attempts => some (allKeysFailedText (toString attempts))
  | keyLength accepted actual =>
    some (keyLengthText (acceptedLengths accepted) (toString actual))
  | invalidValue why => some why.message
  | missingField name => some (Text.quoted name)
  | notSerializable type => some (type ++ " cannot be pickled")
  | wrongType | missingAttribute | endOfInput | undecodable | unencodable | overflow
  | outOfMemory => none

end Failure

end SealedMetadata
