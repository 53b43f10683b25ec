import SealedMetadata.Decimal.Shortest
import SealedMetadata.Uuid
import SealedMetadata.Vault

/-!
Values as payload fields hold them. Each has a plain form, a quoted form for messages, a truth
value, and readings as a number, as bytes and as a secret.
-/

namespace SealedMetadata

/-- A value of a payload field. -/
inductive Value
  | none
  | bool (b : Bool)
  | int (n : Int)
  | float (x : Float)
  | text (s : String)
  | bytes (b : Bytes)
  | sealed (s : Sealed)
  | uuid (u : Uuid)
  | version (v : Version)
  | member (enumeration label value : String)
  | list (items : List Value)
  | tuple (items : List Value)
  | record (fields : List (String × Value))

namespace Value

/-- The name of a version among its fellows. -/
def versionLabel : Version → String
  | .cbc => "V1_CBC"
  | .gcm => "V2_GCM"

def boolText (b : Bool) : String := if b then "True" else "False"

mutual

/-- The form of a value inside messages and inside other values. A sealed value shows its size
only. -/
def quoted (v : Vault) : Value → String
  | none => "None"
  | bool b => boolText b
  | int n => toString n
  | float x => Decimal.text x
  | text s => Text.quoted s
  | bytes b => Text.quotedBytes b
  | sealed s => s.kind.name ++ "(***, len=" ++ toString (v.content s).length ++ ")"
  | uuid u => "UUID('" ++ u.text ++ "')"
  | version w => "<MetadataVersion." ++ versionLabel w ++ ": " ++ toString w.number ++ ">"
  | member enumeration label value =>
    "<" ++ enumeration ++ "." ++ label ++ ": " ++ Text.quoted value ++ ">"
  | list items => "[" ++ ", ".intercalate (quotedItems v items) ++ "]"
  | tuple [item] => "(" ++ quoted v item ++ ",)"
  | tuple items => "(" ++ ", ".intercalate (quotedItems v items) ++ ")"
  | record fields => "\x7b" ++ ", ".intercalate (quotedFields v fields) ++ "\x7d"

def quotedItems (v : Vault) : List Value → List String
  | [] => []
  | item :: items => quoted v item :: quotedItems v items

def quotedFields (v : Vault) : List (String × Value) → List String
  | [] => []
  | (name, value) :: fields =>
    (Text.quoted name ++ ": " ++ quoted v value) :: quotedFields v fields

end

/-- The plain form of a value. A sealed value shows nothing. -/
def display (v : Vault) : Value → String
  | text s => s
  | sealed _ => "***"
  | uuid u => u.text
  | version w => toString w.number
  | member enumeration label _ => enumeration ++ "." ++ label
  | value => quoted v value

/-- Whether a value counts as true: numbers other than zero, and what is not empty. -/
def countsAsTrue (v : Vault) : Value → Bool
  | none => false
  | bool b => b
  | int n => n ≠ 0
  | float x => x != 0
  | text s => !s.isEmpty
  | bytes b => !b.isEmpty
  | sealed s => !(v.content s).isEmpty
  | list items | tuple items => !items.isEmpty
  | record fields => !fields.isEmpty
  | uuid _ | version _ | member _ _ _ => true

/-- The value, or none in its place where it does not count as true. -/
def orNone (v : Vault) (value : Value) : Value := if value.countsAsTrue v then value else none

/-- The number that was read, or the refusal of a numeral that is shown so. -/
def spelled (shown : String) : Except Text.IntLiteral.Refusal Int → Except Failure Int
  | .ok n => .ok n
  | .error .malformed => .error (.invalidValue (.number 10 shown))
  | .error (.tooLong digits) => .error (.invalidValue (.numberTooLong digits))

/-- The number that a value converts to: fractions are dropped, and texts and bytes are read. Of
bytes that are no number the first two hundred are shown. -/
def toInt : Value → Except Failure Int
  | bool b => .ok b.toNat
  | int n => .ok n
  | float x =>
    if x.isNaN then .error (.invalidValue .notANumber)
    else if x.isInf then .error .overflow
    else .ok (Decimal.truncate x)
  | text s => spelled (Text.quoted s) (Text.IntLiteral.parse 10 s)
  | bytes b => spelled (Text.quotedBytes (b.take 200)) (Text.IntLiteral.parseBytes 10 b)
  | uuid u => .ok u.value.toNat
  | version w => .ok w.number
  | _ => .error .wrongType

/-- The whole number that a value equals, if it equals one. -/
def number? : Value → Option Int
  | bool b => some b.toNat
  | int n => some n
  | float x => if Decimal.isWhole x then some (Decimal.truncate x) else Option.none
  | version w => some w.number
  | _ => Option.none

/-- A value as the number of an authentication version. -/
def requestedAuthVersion (v : Vault) (value : Value) : RequestedVersion :=
  ⟨value.number?, value.display v⟩

/-- A value as the number of a metadata version, which a truth value never is. -/
def requestedVersion (v : Vault) (value : Value) : RequestedVersion :=
  match value with
  | bool b => ⟨Option.none, boolText b⟩
  | value => value.requestedAuthVersion v

/-- The byte that a value is. -/
def toByte (container : String) : Value → Except Failure UInt8
  | bool b => .ok b.toNat.toUInt8
  | version w => .ok w.number.toUInt8
  | int n =>
    if 0 ≤ n ∧ n < 256 then .ok n.toNat.toUInt8
    else .error (.invalidValue (.byteRange container))
  | _ => .error .wrongType

/-- So many zero bytes, if the number is a size at all and memory can hold them. -/
def zeros (n : Int) : Except Failure Bytes :=
  if n < 0 then .error (.invalidValue .negativeCount)
  else if Nat.pow 2 63 ≤ n.toNat then .error .overflow
  else if Nat.pow 2 38 ≤ n.toNat then .error .outOfMemory
  else .ok (List.replicate n.toNat 0)

/-- The bytes of a value that is neither text nor sealed: bytes themselves, a number of zeros, or
a list of bytes. -/
def toBytes (container : String) : Value → Except Failure Bytes
  | bytes b => .ok b
  | bool b => zeros b.toNat
  | int n => zeros n
  | version w => zeros w.number
  | list items | tuple items => items.mapM (toByte container)
  | record [] => .ok []
  | _ => .error .wrongType

/-- A value as a secret. -/
def toSecret (v : Vault) (container : String) : Value → Except Failure Secret
  | text s => .ok (.text s)
  | sealed s => .ok (v.secret s)
  | value => (value.toBytes container).map .bytes

/-- A value as a secret that may be absent, as what does not count as true is. -/
def toSecret? (v : Vault) (value : Value) : Except Failure (Option Secret) :=
  match value with
  | text s => .ok (some (.text s))
  | sealed s => .ok (some (v.secret s))
  | value =>
    if value.countsAsTrue v then (value.toBytes "bytes").map fun b => some (.bytes b)
    else .ok Option.none

mutual

/-- Whether two values are equal. Numbers compare by value, sealed values by content. -/
def same (v : Vault) : Value → Value → Bool
  | none, none => true
  | text s, text t => s == t
  | bytes b, bytes c => b == c
  | sealed s, sealed t => v.content s == v.content t
  | uuid t, uuid u => t == u
  | member e l _, member f m _ => e == f && l == m
  | list xs, list ys => sameItems v xs ys
  | tuple xs, tuple ys => sameItems v xs ys
  | record xs, record ys => xs.length == ys.length && sameFields v xs ys
  | float x, float y => x == y
  | x, y =>
    match x.number?, y.number? with
    | some m, some n => m == n
    | _, _ => false

def sameItems (v : Vault) : List Value → List Value → Bool
  | [], [] => true
  | x :: xs, y :: ys => same v x y && sameItems v xs ys
  | _, _ => false

/-- Whether each field is found with an equal value. -/
def sameFields (v : Vault) : List (String × Value) → List (String × Value) → Bool
  | [], _ => true
  | (name, x) :: xs, ys =>
    (match ys.lookup name with
      | some y => same v x y
      | Option.none => false) && sameFields v xs ys

end

/-- The field of a record, if the value is a record. -/
def fields? : Value → Option (List (String × Value))
  | record fields => some fields
  | _ => Option.none

end Value

/-- A field of a record, none if it is absent. -/
def fieldOrNone (fields : List (String × Value)) (name : String) : Value :=
  (fields.lookup name).getD .none

end SealedMetadata
