import SealedMetadata.Bytes
import SealedMetadata.Text.Blank
import SealedMetadata.Text.DecimalDigit

/-!
Whole numbers in text: blanks at both ends, one sign, and digits of any script with single
underscores between them. In base sixteen the digits may follow `0x` or `0X`.
-/

namespace SealedMetadata.Text.IntLiteral

/-- Why a text is not read as a number. -/
inductive Refusal
  | malformed
  | tooLong (digits : Nat)
  deriving DecidableEq

/-- The most digits that are read in base ten. -/
def digitLimit : Nat := 4300

/-- The value of a digit in base ten or sixteen. -/
def digit? (base : Nat) (c : Char) : Option Nat :=
  let n := c.toNat
  if base = 16 ∧ 97 ≤ n ∧ n ≤ 102 then some (n - 87)
  else if base = 16 ∧ 65 ≤ n ∧ n ≤ 70 then some (n - 55)
  else decimalValue? c

/-- Whether a character may stand in a row of digits. -/
def inRow (base : Nat) (c : Char) : Bool := c = '_' || (digit? base c).isSome

/-- Whether a row begins and ends with a digit and has no two underscores side by side. -/
def wellSeparated : List Char → Bool
  | [] => false
  | [c] => c ≠ '_'
  | c :: '_' :: rest => c ≠ '_' && wellSeparated rest
  | c :: rest => c ≠ '_' && wellSeparated rest

/-- The values of the digits of a row. -/
def values (base : Nat) (row : List Char) : List Nat := row.filterMap (digit? base)

/-- The number that digit values spell. -/
def ofValues (base : Nat) (vs : List Nat) : Nat := vs.foldl (fun n v => base * n + v) 0

/-- Whether there is a minus, and what follows the sign. -/
def splitSign : List Char → Bool × List Char
  | '-' :: rest => (true, rest)
  | '+' :: rest => (false, rest)
  | cs => (false, cs)

/-- What follows `0x`, and one underscore after it, in base sixteen. The zero may be one of any
script, the letter may not. -/
def dropMark (base : Nat) : List Char → List Char
  | zero :: x :: rest =>
    if base = 16 ∧ decimalValue? zero = some 0 ∧ (x = 'x' ∨ x = 'X') then
      match rest with
      | '_' :: rest => rest
      | rest => rest
    else zero :: x :: rest
  | cs => cs

/-- The number that a list of characters spells. -/
def parseChars (base : Nat) (cs : List Char) : Except Refusal Int :=
  let signed := splitSign (cs.dropWhile isBlank)
  let cs := dropMark base signed.2
  let row := cs.takeWhile (inRow base)
  let vs := values base row
  -- a row that is too long is told of before anything that follows it
  if !wellSeparated row then .error .malformed
  else if base = 10 ∧ digitLimit < vs.length then .error (.tooLong vs.length)
  else if !(cs.dropWhile (inRow base)).all isBlank then .error .malformed
  else .ok (if signed.1 then -ofValues base vs else ofValues base vs)

def parse (base : Nat) (s : String) : Except Refusal Int := parseChars base s.toList

/-- The character that a byte of a numeral stands for. A byte outside ASCII is neither a digit nor
a blank. -/
def ofByte (b : UInt8) : Char := if b < 128 then Char.ofNat b.toNat else '?'

def parseBytes (base : Nat) (b : Bytes) : Except Refusal Int := parseChars base (b.map ofByte)

end SealedMetadata.Text.IntLiteral
