/-!
Capital letters, as far as they are ASCII. Besides the ASCII letters, a few letters and ligatures
have capital forms of ASCII letters only; every other character stays as it is.
-/

namespace SealedMetadata.Text

/-- The capitals of a character, where they are ASCII. -/
def capital (c : Char) : List Char :=
  match c.toNat with
  | 0xdf => ['S', 'S']
  | 0x131 => ['I']
  | 0x17f => ['S']
  | 0xfb00 => ['F', 'F']
  | 0xfb01 => ['F', 'I']
  | 0xfb02 => ['F', 'L']
  | 0xfb03 => ['F', 'F', 'I']
  | 0xfb04 => ['F', 'F', 'L']
  | 0xfb05 => ['S', 'T']
  | 0xfb06 => ['S', 'T']
  | _ => [c.toUpper]

def capitals (s : String) : String := String.ofList (s.toList.flatMap capital)

end SealedMetadata.Text
