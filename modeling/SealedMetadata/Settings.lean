import SealedMetadata.Log
import SealedMetadata.Text.Capitals
import SealedMetadata.Text.IntLiteral

/-!
Settings from environment variables. A variable that is unset or empty leaves its default; the
version is judged before the level.
-/

namespace SealedMetadata

/-- The version in which metadata is written, and the level from which records are logged. -/
structure Settings where
  metadataVersion : Version
  logLevel : Int
  deriving DecidableEq

namespace Settings

/-- An environment: the value of each variable that is set. -/
abbrev Environment := List (String × String)

/-- The settings of an empty environment. -/
def default : Settings := ⟨.gcm, 20⟩

def versionVariable : String := "CLOUDMETA_METADATA_VERSION"

def levelVariable : String := "CLOUDMETA_LOG_LEVEL"

/-- The version that a text names by its number. -/
def parseVersion (raw : String) : Except Failure Version :=
  match Text.IntLiteral.parse 10 raw with
  | .ok 1 => .ok .cbc
  | .ok 2 => .ok .gcm
  | _ => .error (.invalidValue (.versionSetting raw))

/-- The level that a text names in letters of either case. -/
def parseLevel (raw : String) : Except Failure Int :=
  match Log.levelNamed? (Text.capitals raw) with
  | some level => .ok level
  | none => .error (.invalidValue (.levelSetting raw))

/-- The value of a variable, unless it is unset or empty. -/
def value? (env : Environment) (name : String) : Option String :=
  (env.lookup name).filter fun s => !s.isEmpty

/-- The settings in an environment. -/
def ofEnvironment (env : Environment) : Except Failure Settings := do
  let version ← match value? env versionVariable with
    | some raw => parseVersion raw
    | none => .ok default.metadataVersion
  let level ← match value? env levelVariable with
    | some raw => parseLevel raw
    | none => .ok default.logLevel
  return ⟨version, level⟩

end Settings

end SealedMetadata
