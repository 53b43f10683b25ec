import SealedMetadata.Value

/-!
The closed choices in link payloads. Each choice is sent as a text.
-/

namespace SealedMetadata

/-- A type of which payloads send one value in its text form. -/
class Choice (α : Type) where
  /-- The name under which messages speak of the choice. -/
  enumeration : String
  /-- Every value, in order. -/
  all : List α
  /-- The text that is sent. -/
  text : α → String
  /-- The name of a value among its fellows. -/
  label : α → String

namespace Choice

variable {α : Type} [Choice α]

def ofText? (s : String) : Option α := (all (α := α)).find? fun a => text a == s

/-- The value that a payload field names. -/
def ofValue (v : Vault) (value : Value) : Except Failure α :=
  let refusal := Failure.invalidValue (.notAMember (value.quoted v) (enumeration α))
  match value with
  | .text s =>
    match ofText? s with
    | some a => .ok a
    | none => .error refusal
  | _ => .error refusal

/-- A choice as a value. -/
def toValue (a : α) : Value := .member (enumeration α) (label a) (text a)

end Choice

/-- Whether a link asks for a password. -/
inductive PasswordState
  | empty
  | notEmpty
  deriving DecidableEq

/-- Whether a link shows a button for downloads. -/
inductive DownloadButton
  | disable
  | enable
  deriving DecidableEq

/-- How long a link lives. -/
inductive Expiration
  | never
  | hour
  | sixHours
  | day
  | threeDays
  | week
  | twoWeeks
  | month
  deriving DecidableEq

/-- What a link leads to. -/
inductive ItemKind
  | file
  | folder
  deriving DecidableEq

instance : Choice PasswordState where
  enumeration := "PasswordState"
  all := [.empty, .notEmpty]
  text
    | .empty => "empty"
    | .notEmpty => "notempty"
  label
    | .empty => "EMPTY"
    | .notEmpty => "NOT_EMPTY"

instance : Choice DownloadButton where
  enumeration := "DownloadBtnState"
  all := [.disable, .enable]
  text
    | .disable => "disable"
    | .enable => "enable"
  label
    | .disable => "DISABLE"
    | .enable => "ENABLE"

instance : Choice Expiration where
  enumeration := "Expire"
  all := [.never, .hour, .sixHours, .day, .threeDays, .week, .twoWeeks, .month]
  text
    | .never => "never"
    | .hour => "1h"
    | .sixHours => "6h"
    | .day => "1d"
    | .threeDays => "3d"
    | .week => "7d"
    | .twoWeeks => "14d"
    | .month => "30d"
  label
    | .never => "NEVER"
    | .hour => "HOUR"
    | .sixHours => "SIX_HOURS"
    | .day => "DAY"
    | .threeDays => "THREE_DAYS"
    | .week => "WEEK"
    | .twoWeeks => "TWO_WEEKS"
    | .month => "MONTH"

instance : Choice ItemKind where
  enumeration := "ItemKind"
  all := [.file, .folder]
  text
    | .file => "file"
    | .folder => "folder"
  label
    | .file => "FILE"
    | .folder => "FOLDER"

end SealedMetadata
