/-!
The characters that may surround a number in text: the ASCII layout characters and the blanks
and line ends of other scripts, but not the four ASCII information separators.
-/

namespace SealedMetadata.Text

/-- Whether a character may surround a number. -/
def isBlank (c : Char) : Bool :=
  let n := c.toNat
  (9 ≤ n && n ≤ 13) || n = 32 || n = 0x85 || n = 0xa0 || n = 0x1680 ||
    (0x2000 ≤ n && n ≤ 0x200a) || n = 0x2028 || n = 0x2029 || n = 0x202f || n = 0x205f || n = 0x3000

end SealedMetadata.Text
