import SealedMetadata.Text.Pieces
import SealedMetadata.Version

/-!
Log records. What the library logs is an `Event`: it holds public quantities only, and its text
is fixed here.
-/

namespace SealedMetadata.Log

/-- A record: where it comes from, how severe it is, and its text. -/
structure Record where
  logger : String
  level : Int
  message : String
  deriving DecidableEq

/-- Something that the library logs. -/
inductive Event
  | encrypting (size : Nat) (version : Version)
  | decrypting (size : Nat) (version : Version)
  | derivation (authVersion : String)
  | masterKeysRead (count : Nat)
  | keyMatched (position : Nat)
  | commandFailed (command : String) (kind : FailureKind)
  deriving DecidableEq

/-- The level of details, at which all events are logged. -/
def debugLevel : Int := 10

/-- The level from which records matter where none was set. -/
def warningLevel : Int := 30

/-- The package's logger, parent of all others of the library. -/
def package : String := "cloudmeta"

def Event.record : Event → Record
  | encrypting size version =>
    ⟨"cloudmeta.security.crypto", debugLevel,
      "Encrypting " ++ toString size ++ " bytes of metadata as version " ++ toString version.number⟩
  | decrypting size version =>
    ⟨"cloudmeta.security.crypto", debugLevel,
      "Decrypting " ++ toString size ++ " bytes of version " ++ toString version.number ++
        " metadata"⟩
  | derivation authVersion =>
    ⟨"cloudmeta.security.credentials", debugLevel,
      "Deriving login credentials for auth version " ++ authVersion⟩
  | masterKeysRead count =>
    ⟨"cloudmeta.security.metadata", debugLevel, "Decrypted " ++ toString count ++ " master key(s)"⟩
  | keyMatched position =>
    ⟨"cloudmeta.security.metadata", debugLevel,
      "Metadata decrypted with master key #" ++ toString position⟩
  | commandFailed command kind =>
    ⟨"cloudmeta.cli", debugLevel, command ++ " failed: " ++ kind.name⟩

/-- The names of the standard levels. -/
def levelNames : List (Int × String) :=
  [(50, "CRITICAL"), (40, "ERROR"), (30, "WARNING"), (20, "INFO"), (10, "DEBUG"), (0, "NOTSET")]

def levelName (level : Int) : String := (levelNames.lookup level).getD ("Level " ++ toString level)

/-- The level that a name stands for, two names being second names. -/
def levelNamed? (name : String) : Option Int :=
  match name with
  | "FATAL" => some 50
  | "WARN" => some 30
  | _ => (levelNames.find? fun l => l.2 = name).map (·.1)

/-- The least level that is written where `level` was set: zero sets none. -/
def threshold (level : Int) : Int := if level = 0 then warningLevel else level

/-- Whether records of one level are written where another was set. Records at zero or below
never are. -/
def isWritten (setLevel level : Int) : Bool := 0 < level && threshold setLevel ≤ level

/-- The line of a record at a time of day. -/
def Record.line (time : String) (r : Record) : String :=
  "[" ++ time ++ "] " ++ levelName r.level ++ " " ++ r.logger ++ ": " ++ r.message

/-- The lines that events leave where a level was set. A message with line ends in it is spread
over several lines. -/
def lines (time : String) (setLevel : Int) (events : List Event) : List String :=
  ((events.map Event.record).filter fun r => isWritten setLevel r.level).flatMap fun r =>
    (Text.split '\n' (r.line time).toList).map String.ofList

end SealedMetadata.Log
