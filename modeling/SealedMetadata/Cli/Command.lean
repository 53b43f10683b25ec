import SealedMetadata.Cli.Options
import SealedMetadata.Text.IntLiteral
import SealedMetadata.Version

/-!
The four commands and how a command line names them.
-/

namespace SealedMetadata.Cli

/-- A command with its arguments. A key or password that is absent is asked for. -/
inductive Command
  | encrypt (data : RawText) (key : Option RawText) (version : Option RequestedVersion)
  | decrypt (data : RawText) (key : Option RawText)
  | loginHash (authVersion : RequestedVersion) (salt password : Option RawText)
      (showMasterKey : Bool)
  | linkHash (password : Option RawText)

/-- A command, and whether its steps are to be logged. -/
structure Invocation where
  verbose : Bool
  command : Command

namespace Command

def name : Command → String
  | encrypt _ _ _ => "encrypt"
  | decrypt _ _ => "decrypt"
  | loginHash _ _ _ _ => "login-hash"
  | linkHash _ => "link-hash"

/-- The number in a raw text, if it is one. -/
def numberIn? (t : RawText) : Option Int := do
  let s ← t.text?
  (Text.IntLiteral.parse 10 s).toOption

def numbered (name : String) : OptionSpec := ⟨name, true, fun t => (numberIn? t).isSome⟩

/-- The version that an option names by its value. Without a value it names none, and shows as an
empty list. -/
def versionOf (value : Option RawText) : RequestedVersion :=
  match value.bind numberIn? with
  | some n => .ofInt n
  | none => ⟨none, "[]"⟩

/-- The command of a name with the arguments that follow it. -/
def ofArguments (separators : Separators) (name : RawText) (args : List RawText) :
    Except Stop Command :=
  match name.text? with
  | some "encrypt" => do
    let r ← Reading.ofArguments separators [valued "--key", numbered "--version"] true args
    return .encrypt (r.operand?.getD []) (r.text? "--key") ((r.last? "--version").map versionOf)
  | some "decrypt" => do
    let r ← Reading.ofArguments separators [valued "--key"] true args
    return .decrypt (r.operand?.getD []) (r.text? "--key")
  | some "login-hash" => do
    let r ← Reading.ofArguments separators
      [numbered "--auth-version", valued "--salt", valued "--password", switch "--show-master-key"]
      false args
    return .loginHash (((r.last? "--auth-version").map versionOf).getD (.ofInt 2))
      (r.text? "--salt") (r.text? "--password") (r.has "--show-master-key")
  | some "link-hash" => do
    let r ← Reading.ofArguments separators [valued "--password"] false args
    return .linkHash (r.text? "--password")
  | _ => .error .fault

end Command

namespace Invocation

/-- The options before the command's name. -/
def specs : List OptionSpec := [help, switch "--verbose"]

/-- The command among read arguments. A surplus option before it is a fault, but only once the
command's own arguments are read. -/
def find (separators : Separators) (verbose surplus : Bool) :
    List (Token × RawText) → Except Stop Invocation
  | [] => .error .fault
  | (.separator, _) :: _ => .error .fault
  | (.unknown, _) :: ts => find separators verbose true ts
  | (.shortHelp tail, _) :: _ => .error (afterShortHelp tail)
  | (.option spec attached, _) :: ts =>
    match attached with
    | some _ => .error .fault
    | none => if spec.name = help.name then .error .help else find separators true surplus ts
  | (.operand name, _) :: ts => do
    let command ← Command.ofArguments separators name (ts.map (·.2))
    if surplus then .error .fault else .ok ⟨verbose, command⟩

/-- The invocation that a command line names. Its texts are raw: it may hold bytes that are no
UTF-8, which stop a command only where it reads one as a secret. -/
def ofArguments (separators : Separators) (args : List RawText) : Except Stop Invocation := do
  let ts ← tokens specs args
  find separators false false ts

end Invocation

end SealedMetadata.Cli
