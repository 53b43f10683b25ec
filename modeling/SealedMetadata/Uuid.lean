import SealedMetadata.Action
import SealedMetadata.Text.IntLiteral

/-!
Universally unique identifiers: 128 bits, written as thirty-two hexadecimal digits in five groups.
-/

namespace SealedMetadata

structure Uuid where
  value : BitVec 128
  deriving DecidableEq

namespace Uuid

/-- The five groups, with hyphens between them. -/
def text (u : Uuid) : String :=
  let ds := Text.hexDigits 32 u.value.toNat
  let part (start count : Nat) := String.ofList ((ds.drop start).take count)
  "-".intercalate [part 0 8, part 8 4, part 12 4, part 16 4, part 20 12]

/-- A list of characters with every occurrence of a nonempty word left out. -/
def without (word : List Char) : Nat → List Char → List Char
  | _, [] => []
  | n + 1, _ :: cs => without word n cs
  | 0, c :: cs =>
    if word.isPrefixOf (c :: cs) then without word (word.length - 1) cs
    else c :: without word 0 cs

def isBrace (c : Char) : Bool := c = '\x7b' || c = '\x7d'

/-- The digits in a text: the words `urn:` and `uuid:`, braces at both ends and all hyphens are
left out. -/
def bareDigits (s : String) : List Char :=
  let cs := without "uuid:".toList 0 (without "urn:".toList 0 s.toList)
  let cs := ((cs.dropWhile isBrace).reverse.dropWhile isBrace).reverse
  cs.filter (· ≠ '-')

/-- The identifier that a text spells: thirty-two characters that are a number in base sixteen. -/
def ofText (s : String) : Except Failure Uuid :=
  let cs := bareDigits s
  if cs.length ≠ 32 then .error (.invalidValue .uuidForm)
  else
    match Text.IntLiteral.parseChars 16 cs with
    | .ok n => .ok ⟨BitVec.ofInt 128 n⟩
    | .error _ => .error (.invalidValue (.number 16 (Text.quoted (String.ofList cs))))

/-- The identifier of sixteen bytes, marked as a random one: four bits name the fourth version
and two bits the common variant. -/
def ofRandomBytes (b : Bytes) : Uuid :=
  let marked := b.mapIdx fun i x =>
    if i = 6 then (x &&& 0x0f) ||| 0x40 else if i = 8 then (x &&& 0x3f) ||| 0x80 else x
  ⟨BitVec.ofNat 128 (marked.foldl (fun n x => 256 * n + x.toNat) 0)⟩

def draw : Action Uuid := do
  let bytes ← Action.draw 16
  return ofRandomBytes bytes

end Uuid

end SealedMetadata
