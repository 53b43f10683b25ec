import SealedMetadata.Blob.AnyKey
import SealedMetadata.Cli.Run
import SealedMetadata.Session.Object

/-!
What an operation replies.
-/

namespace SealedMetadata.Session

/-- A failure described: its wording, the kinds that its kind is a case of, and its attributes. -/
structure Description where
  message : String
  bases : List FailureKind
  attributes : List (String × Value)

/-- What an operation replies: an object, the outcome of a search among keys, a described
failure, or the report of a command line. -/
inductive Reply
  | object (o : Object)
  | search (tried : Nat) (result : Except Failure Object)
  | description (d : Description)
  | report (r : Cli.Report)

namespace Reply

def ofValue (x : Value) : Reply := .object (.value x)

def ofText (s : String) : Reply := ofValue (.text s)

def ofBytes (b : Bytes) : Reply := ofValue (.bytes b)

def ofModel (m : Model) : Reply := .object (.model m)

/-- A new sealed text as the reply. -/
def keepText (s : String) : Vaulted Reply := do
  let s ← Vaulted.keep .text (Utf8.encode s)
  return ofValue (.sealed s)

end Reply

end SealedMetadata.Session
