import SealedMetadata.Cli.RawText
import SealedMetadata.Text.DecimalDigit

/-!
Command lines as options and operands. An option may be shortened as long as it stays unique,
its value follows it or an equals sign, and after `--` nothing is an option. Reading ends early at a
request for help or at the first fault.
-/

namespace SealedMetadata.Cli

/-- Why a command line is not carried out. -/
inductive Stop
  | help
  | fault
  deriving DecidableEq

/-- What becomes of a `--` right behind the equals sign of an option. Older releases of this grammar
drop it, as they drop one between arguments, and the option is left without a value; newer ones
keep it as the value. -/
inductive Separators
  | dropped
  | kept
  deriving DecidableEq

/-- An option: its long name, whether a value follows it, and which values are accepted. -/
structure OptionSpec where
  name : String
  takesValue : Bool
  accepts : RawText → Bool

def switch (name : String) : OptionSpec := ⟨name, false, fun _ => true⟩

def valued (name : String) : OptionSpec := ⟨name, true, fun _ => true⟩

/-- The option that asks for help, which every command has. -/
def help : OptionSpec := switch "--help"

/-- How one argument reads. An attached text is what follows an equals sign, and the short name
for help comes with what follows it directly. -/
inductive Token
  | operand (s : RawText)
  | separator
  | option (spec : OptionSpec) (attached : Option RawText)
  | shortHelp (tail : RawText)
  | unknown

/-- The argument after which nothing is an option. -/
def separator : RawText := [.char '-', .char '-']

/-- A text cut at its first equals sign. -/
def cutAtEquals (t : RawText) : RawText × Option RawText :=
  match t.dropWhile (· ≠ .char '=') with
  | [] => (t, none)
  | _ :: value => (t.takeWhile (· ≠ .char '='), some value)

def Point.isDecimal : Point → Bool
  | char c => Text.isDecimal c
  | surrogate _ => false

/-- Digits only, and at least one. -/
def isDigits (t : RawText) : Bool := !t.isEmpty && t.all Point.isDecimal

/-- Whether an argument looks like a negative number: a minus, then digits with or without a
point before the last of them. A line end after it does not count. -/
def isNegativeNumber (t : RawText) : Bool :=
  match t with
  | .char '-' :: rest =>
    let body := if rest.getLast? = some (.char '\n') then rest.dropLast else rest
    let fraction := body.dropWhile (· ≠ .char '.')
    isDigits body ||
      ((body.takeWhile (· ≠ .char '.')).all Point.isDecimal && isDigits (fraction.drop 1))
  | _ => false

/-- How an argument that names no option reads. -/
def unmatched (arg : RawText) : Token :=
  if isNegativeNumber arg || arg.contains (.char ' ') then .operand arg else .unknown

/-- The name of an option, as an argument has it. -/
def OptionSpec.text (s : OptionSpec) : RawText := .ofString s.name

def named? (specs : List OptionSpec) (name : RawText) : Option OptionSpec :=
  specs.find? fun s => s.text == name

/-- How an argument that starts with two minus signs reads: as the option that it names, or else
as the only one whose name it begins. -/
def classifyLong (specs : List OptionSpec) (arg : RawText) : Except Stop Token :=
  let cut := cutAtEquals arg
  match named? specs arg, named? specs cut.1 with
  | some s, _ => .ok (.option s none)
  | none, some s => .ok (.option s cut.2)
  | none, none =>
    match specs.filter fun s => cut.1.isPrefixOf s.text with
    | [] => .ok (unmatched arg)
    | [s] => .ok (.option s cut.2)
    | _ => .error .fault

/-- How an argument reads before any `--`. -/
def classify (specs : List OptionSpec) (arg : RawText) : Except Stop Token :=
  match arg with
  | .char '-' :: .char '-' :: _ => classifyLong specs arg
  | .char '-' :: .char 'h' :: tail => .ok (.shortHelp tail)
  | .char '-' :: _ :: _ => .ok (unmatched arg)
  | _ => .ok (.operand arg)

/-- How all arguments read, each beside its own text. After `--` all are operands. -/
def tokens (specs : List OptionSpec) : List RawText → Except Stop (List (Token × RawText))
  | [] => .ok []
  | arg :: args =>
    if arg = separator then .ok ((.separator, arg) :: args.map fun a => (.operand a, a))
    else do
      let t ← classify specs arg
      let ts ← tokens specs args
      return (t, arg) :: ts

/-- Whether characters do nothing but repeat the short name for help. -/
def repeatsHelp (t : RawText) : Bool := !t.isEmpty && t.all (· = .char 'h')

/-- What a text directly after the short name for help comes to. It may repeat the short name,
also after an equals sign; all else is a fault. -/
def afterShortHelp : RawText → Stop
  | [] => .help
  | .char '=' :: tail => if repeatsHelp tail then .help else .fault
  | tail => if repeatsHelp tail then .help else .fault

/-- The value in a text that is attached to an option: the text itself, but for a `--` in the
releases that drop it. -/
def attachedValue : Separators → RawText → Option RawText
  | .dropped, t => if t = separator then none else some t
  | .kept, t => some t

/-- The options of a command line with their values, if they have one, in order, and its operand
if it has one. -/
structure Reading where
  options : List (String × Option RawText)
  operand? : Option RawText
  surplus : Bool

namespace Reading

def empty : Reading := ⟨[], none, false⟩

/-- The reading with one more option, if its value is accepted. The lack of one always is. -/
def addOption (r : Reading) (spec : OptionSpec) (value : Option RawText) : Except Stop Reading :=
  if value.all spec.accepts then .ok { r with options := r.options ++ [(spec.name, value)] }
  else .error .fault

def has (r : Reading) (name : String) : Bool := (r.options.lookup name).isSome

/-- The last occurrence of an option, with its value if it has one. -/
def last? (r : Reading) (name : String) : Option (Option RawText) := r.options.reverse.lookup name

/-- The text of the last occurrence of an option, empty if it is without a value. -/
def text? (r : Reading) (name : String) : Option RawText := (r.last? name).map (·.getD [])

/-- The reading of the rest of a command line. An operand is taken where the command wants one,
and one `--` beside it goes with it; all further operands are surplus. -/
def go (separators : Separators) (wantsOperand : Bool) (r : Reading) :
    List Token → Except Stop Reading
  | [] => .ok r
  | .unknown :: ts => go separators wantsOperand { r with surplus := true } ts
  | .shortHelp tail :: _ => .error (afterShortHelp tail)
  | .operand s :: ts =>
    if wantsOperand && r.operand?.isNone then
      -- a separator right after the operand belongs to it
      match ts with
      | .separator :: ts => go separators wantsOperand { r with operand? := some s } ts
      | ts => go separators wantsOperand { r with operand? := some s } ts
    else go separators wantsOperand { r with surplus := true } ts
  | .separator :: ts =>
    match ts with
    | .operand s :: ts =>
      if wantsOperand && r.operand?.isNone then
        go separators wantsOperand { r with operand? := some s } ts
      else go separators wantsOperand { r with surplus := true } ts
    | ts => go separators wantsOperand { r with surplus := true } ts
  | .option spec attached :: ts =>
    match spec.takesValue, attached with
    | false, some _ => .error .fault
    | false, none =>
      if spec.name = help.name then .error .help
      else do go separators wantsOperand (← r.addOption spec none) ts
    | true, some s => do
      go separators wantsOperand (← r.addOption spec (attachedValue separators s)) ts
    | true, none =>
      -- the value is the next argument, unless that is an option or a separator
      match ts with
      | .operand s :: ts => do go separators wantsOperand (← r.addOption spec (some s)) ts
      | _ => .error .fault

/-- The reading of a command's arguments. The operand must be there if one is wanted. -/
def ofArguments (separators : Separators) (specs : List OptionSpec) (wantsOperand : Bool)
    (args : List RawText) : Except Stop Reading := do
  let ts ← tokens (help :: specs) args
  let r ← go separators wantsOperand empty (ts.map (·.1))
  if r.surplus || (wantsOperand && r.operand?.isNone) then .error .fault else .ok r

end Reading

end SealedMetadata.Cli
