import SealedMetadata.Session.Reply

/-!
Failures described from their kind and the arguments that they are made of.
-/

namespace SealedMetadata.Session

/-- The kinds of failure that can be described. -/
def describable : List FailureKind :=
  [.general, .unsupportedVersion, .malformed, .invalidMarker, .decryptionFailed, .allKeysFailed,
    .keyLength]

/-- The wording of a failure that keeps no attributes: its argument, or all of them. -/
def plainWording (v : Vault) : List Value → String
  | [] => ""
  | [x] => x.display v
  | xs => (Value.tuple xs).quoted v

/-- The description of a failure of a kind. Kinds with attributes take a fixed number of
arguments. -/
def describe (v : Vault) (kind : FailureKind) (arguments : List Value) :
    Except Failure Description :=
  match kind, arguments with
  | .unsupportedVersion, [x] =>
    .ok ⟨Failure.unsupportedVersionText (x.display v), kind.ancestors, [("version", x)]⟩
  | .allKeysFailed, [n] =>
    .ok ⟨Failure.allKeysFailedText (n.display v), kind.ancestors, [("attempts", n)]⟩
  | .keyLength, [accepted, actual] =>
    .ok ⟨Failure.keyLengthText (accepted.display v) (actual.display v), kind.ancestors,
      [("expected", accepted), ("actual", actual)]⟩
  | .unsupportedVersion, _ | .allKeysFailed, _ | .keyLength, _ => .error .wrongType
  | _, arguments => .ok ⟨plainWording v arguments, kind.ancestors, []⟩

/-- The description of a failure of a kind given by its name. -/
def describeNamed (v : Vault) (name : String) (arguments : List Value) :
    Except Failure Description :=
  match describable.find? fun k => k.name == name with
  | some kind => describe v kind arguments
  | none => .error .missingAttribute

end SealedMetadata.Session
