import SealedMetadata.Payload.Model

/-!
What a session keeps under a name, and the arguments that refer to it.
-/

namespace SealedMetadata

/-- A result that later operations may use. -/
inductive Object
  | value (v : Value)
  | settings (s : Settings)
  | credentials (c : SealedCredentials)
  | model (m : Model)

namespace Object

/-- The form in messages; settings are never shown. -/
def quoted (v : Vault) : Object → Except Failure String
  | value x => .ok (x.quoted v)
  | settings _ => .error .wrongType
  | credentials c => .ok c.quoted
  | model m => .ok (m.quoted v)

/-- Whether two objects are equal. Objects of different sorts never are. -/
def same (v : Vault) : Object → Object → Bool
  | value x, value y => x.same v y
  | settings s, settings t => s == t
  | credentials c, credentials d => c.contents v == d.contents v
  | model m, model n => m.same v n
  | _, _ => false

/-- An object as a plain value. -/
def toValue : Object → Except Failure Value
  | value x => .ok x
  | _ => .error .wrongType

end Object

namespace Session

/-- The objects of a session by name, the latest first. -/
abbrev Names := List (String × Object)

/-- An argument of an operation: a plain value, a new sealed copy, a stored object or a part of
one, or a list of arguments. -/
inductive Arg
  | value (v : Value)
  | uuid (text : String)
  | sealedCopy (kind : SealedKind) (source : Arg)
  | stored (name : String) (path : List Int)
  | list (items : List Arg)

/-- The item of a list at a place; places below zero count from the end. -/
def itemAt (items : List Value) (place : Int) : Except Failure Value :=
  let i := if place < 0 then items.length + place else place
  match if i < 0 then none else items[i.toNat]? with
  | some x => .ok x
  | none => .error .wrongType

/-- The part of a value at the end of a path. -/
def follow (x : Value) : List Int → Except Failure Value
  | [] => .ok x
  | place :: path =>
    match x with
    | .list items | .tuple items => do follow (← itemAt items place) path
    | _ => .error .wrongType

/-- The object of a name, or a part of it. -/
def lookup (names : Names) (name : String) (path : List Int) : Except Failure Object :=
  match names.lookup name with
  | none => .error (.missingField name)
  | some o =>
    match path with
    | [] => .ok o
    | path => do
      let x ← o.toValue
      return .value (← follow x path)

mutual

/-- The object that an argument stands for. New sealed copies get buffers of their own. -/
def Arg.eval (names : Names) : Arg → Vaulted Object
  | .value x => return .value x
  | .uuid text => do
    let u ← Vaulted.perform (Action.ofExcept (Uuid.ofText text))
    return .value (.uuid u)
  | .sealedCopy kind source => do
    let o ← source.eval names
    let content ← Vaulted.inspect fun v => do (← o.toValue).sealable v
    return .value (.sealed (← Vaulted.keep kind content))
  | .stored name path => Vaulted.perform (Action.ofExcept (lookup names name path))
  | .list items => do
    let values ← evalItems names items
    return .value (.list values)

/-- The values of a list of arguments. -/
def evalItems (names : Names) : List Arg → Vaulted (List Value)
  | [] => return []
  | item :: items => do
    let o ← item.eval names
    let x ← Vaulted.perform (Action.ofExcept o.toValue)
    let xs ← evalItems names items
    return x :: xs

end

def Arg.evalValue (names : Names) (a : Arg) : Vaulted Value := do
  let o ← a.eval names
  Vaulted.perform (Action.ofExcept o.toValue)

/-- An argument that may be absent, none standing in for it. -/
def evalOption (names : Names) (a : Option Arg) : Vaulted Value :=
  match a with
  | none => return .none
  | some a => a.evalValue names

def Arg.evalSecret (names : Names) (a : Arg) : Vaulted Secret := do
  let x ← a.evalValue names
  Vaulted.inspect fun v => x.toSecret v "bytes"

/-- An argument as a secret that may be absent or empty. -/
def evalSecret? (names : Names) (a : Option Arg) : Vaulted (Option Secret) := do
  let x ← evalOption names a
  Vaulted.inspect fun v => x.toSecret? v

/-- An argument as a secret that is absent only if it is none. -/
def evalGivenSecret (names : Names) (a : Option Arg) : Vaulted (Option Secret) := do
  match ← evalOption names a with
  | .none => return none
  | x => do
    let secret ← Vaulted.inspect fun v => x.toSecret v "bytes"
    return some secret

def Arg.evalBytes (names : Names) (a : Arg) : Vaulted Bytes := do
  match ← a.evalValue names with
  | .bytes b => return b
  | _ => Vaulted.fail .wrongType

/-- An argument as a byte string that may be absent. -/
def evalBytes? (names : Names) (a : Option Arg) : Vaulted (Option Bytes) := do
  match ← evalOption names a with
  | .none => return none
  | .bytes b => return some b
  | _ => Vaulted.fail .wrongType

def Arg.evalSecrets (names : Names) (a : Arg) : Vaulted (List Secret) := do
  match ← a.evalValue names with
  | .list items | .tuple items => Vaulted.inspect fun v => items.mapM fun x => x.toSecret v "bytes"
  | _ => Vaulted.fail .wrongType

/-- An argument as a version of metadata, with a default. -/
def evalVersion (names : Names) (a : Option Arg) : Vaulted RequestedVersion := do
  match a with
  | none => return Settings.default.metadataVersion.request
  | some a => do
    let x ← a.evalValue names
    Vaulted.inspect fun v => .ok (x.requestedVersion v)

/-- An argument as a choice, with a default. -/
def evalChoice {α : Type} [Choice α] (names : Names) (a : Option Arg) (default : α) :
    Vaulted α := do
  match a with
  | none => return default
  | some a => do
    let x ← a.evalValue names
    Vaulted.inspect fun v => Choice.ofValue v x

def Arg.evalCredentials (names : Names) (a : Arg) : Vaulted SealedCredentials := do
  match ← a.eval names with
  | .credentials c => return c
  | _ => Vaulted.fail .missingAttribute

def Arg.evalModel (names : Names) (a : Arg) : Vaulted Model := do
  match ← a.eval names with
  | .model m => return m
  | _ => Vaulted.fail .missingAttribute

end Session

end SealedMetadata
