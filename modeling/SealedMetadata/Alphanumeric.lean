import SealedMetadata.Action

/-!
Random ASCII letters and digits, one random byte for each.
-/

namespace SealedMetadata.Alphanumeric

/-- The sixty-two symbols: small letters, capitals, digits. -/
def symbol (n : UInt8) : UInt8 :=
  if n < 26 then 97 + n else if n < 52 then 39 + n else n - 4

def pick (b : UInt8) : UInt8 := symbol (b % 62)

/-- The action that draws symbols, as ASCII bytes. -/
def draw (count : Nat) : Action Bytes := do
  let bytes ← Action.draw count
  return bytes.map pick

def drawText (count : Nat) : Action String := do
  let bytes ← draw count
  return String.ofList (bytes.map fun b => Char.ofNat b.toNat)

end SealedMetadata.Alphanumeric
