import SealedMetadata.Bytes

/-!
Base64 with padding, over ASCII bytes. `encode` writes the one canonical form; `decode?` reads
it strictly but for two freedoms: the bits that a last short group leaves over may be anything,
and whole groups may be followed by any number of padding characters.
-/

namespace SealedMetadata.Base64

def pad : UInt8 := 61

def alphabet : Bytes :=
  "ABCDEFGHIJKLMNOPQRSTUVWXYZabcdefghijklmnopqrstuvwxyz0123456789+/".toList.map
    fun c => c.toNat.toUInt8

/-- The symbol of a value below sixty-four. -/
def symbol (n : UInt8) : UInt8 :=
  if n < 26 then 65 + n
  else if n < 52 then 71 + n
  else if n < 62 then n - 4
  else if n = 62 then 43
  else 47

def value? (c : UInt8) : Option UInt8 :=
  if 65 ≤ c ∧ c ≤ 90 then some (c - 65)
  else if 97 ≤ c ∧ c ≤ 122 then some (c - 71)
  else if 48 ≤ c ∧ c ≤ 57 then some (c + 4)
  else if c = 43 then some 62
  else if c = 47 then some 63
  else none

/-- Three bytes to a group of four symbols, a short last group being padded. -/
def encode : Bytes → Bytes
  | [] => []
  | [a] => [symbol (a >>> 2), symbol ((a &&& 3) <<< 4), pad, pad]
  | [a, b] =>
    [symbol (a >>> 2), symbol ((a &&& 3) <<< 4 ||| b >>> 4), symbol ((b &&& 15) <<< 2), pad]
  | a :: b :: c :: rest =>
    symbol (a >>> 2) :: symbol ((a &&& 3) <<< 4 ||| b >>> 4) ::
      symbol ((b &&& 15) <<< 2 ||| c >>> 6) :: symbol (c &&& 63) :: encode rest

/-- The bytes of a list of symbol values that is followed by `pads` padding characters: a last
group of two values needs two of them, one of three values needs one. -/
def ofValues (pads : Nat) : Bytes → Option Bytes
  | [] => some []
  | [_] => none
  | [a, b] => if pads = 2 then some [a <<< 2 ||| b >>> 4] else none
  | [a, b, c] => if pads = 1 then some [a <<< 2 ||| b >>> 4, b <<< 4 ||| c >>> 2] else none
  | a :: b :: c :: d :: rest => do
    let bytes ← ofValues pads rest
    return (a <<< 2 ||| b >>> 4) :: (b <<< 4 ||| c >>> 2) :: (c <<< 6 ||| d) :: bytes

/-- The bytes that a text stands for: symbols, then padding characters only, and these only
after a symbol. -/
def decode? (text : Bytes) : Option Bytes := do
  let symbols := text.takeWhile (· ≠ pad)
  let padding := text.dropWhile (· ≠ pad)
  guard (padding.all (· = pad) ∧ (symbols = [] → padding = []))
  ofValues padding.length (← symbols.mapM value?)

end SealedMetadata.Base64
