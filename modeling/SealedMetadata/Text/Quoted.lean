import SealedMetadata.Bytes.Hex
import SealedMetadata.Text.Printable

/-!
Texts and byte strings as messages quote them: in single quotes, or in double quotes where that
saves escaping, with escapes for what would not show.
-/

namespace SealedMetadata.Text

/-- The low `width` hexadecimal digits of a number. -/
def hexDigits : Nat → Nat → List Char
  | 0, _ => []
  | width + 1, n => hexDigits width (n / 16) ++ [Hex.digit (n % 16).toUInt8]

/-- The quote around a text: double if the text has a single quote and no double one. -/
def quoteFor (hasSingle hasDouble : Bool) : Char := if hasSingle && !hasDouble then '"' else '\''

/-- A character inside quotes. -/
def escape (quote c : Char) : List Char :=
  if c = quote ∨ c = '\\' then ['\\', c]
  else if c = '\n' then ['\\', 'n']
  else if c = '\r' then ['\\', 'r']
  else if c = '\t' then ['\\', 't']
  else if isPrintable c then [c]
  else if c.toNat < 0x100 then '\\' :: 'x' :: hexDigits 2 c.toNat
  else if c.toNat < 0x10000 then '\\' :: 'u' :: hexDigits 4 c.toNat
  else '\\' :: 'U' :: hexDigits 8 c.toNat

def quoted (s : String) : String :=
  let cs := s.toList
  let q := quoteFor (cs.contains '\'') (cs.contains '"')
  String.ofList (q :: cs.flatMap (escape q) ++ [q])

/-- A byte inside quotes. -/
def escapeByte (quote : Char) (b : UInt8) : List Char :=
  if b < 127 then escape quote (Char.ofNat b.toNat) else '\\' :: 'x' :: hexDigits 2 b.toNat

/-- A byte string in quotes, with a mark before them. -/
def quotedBytes (b : Bytes) : String :=
  let q := quoteFor (b.contains 39) (b.contains 34)
  String.ofList ('b' :: q :: b.flatMap (escapeByte q) ++ [q])

end SealedMetadata.Text
