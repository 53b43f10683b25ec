/-!
The shortest decimal that reads back as a given binary floating-point number, and its text.

A finite positive number is `m * 2 ^ q`. The decimals that read back as it lie between its two
half-way points, ends included if `m` is even. For each count of digits in turn, the two decimals
of that many digits next to the number are tried, the nearer first.
-/

namespace SealedMetadata.Decimal

/-- A finite magnitude `mantissa * 2 ^ exponent`, and whether the gap below it is half the gap
above it. -/
structure Binary where
  mantissa : Nat
  exponent : Int
  narrowBelow : Bool

def Binary.ofFloat (x : Float) : Binary :=
  let bits : Nat := x.toBits.toNat % Nat.pow 2 63
  let fraction : Nat := bits % Nat.pow 2 52
  let field : Nat := bits / Nat.pow 2 52
  -- a field of zero marks the numbers that have no leading one bit
  if field = 0 then ⟨fraction, -1074, false⟩
  else ⟨Nat.pow 2 52 + fraction, (field : Int) - 1075, fraction = 0 ∧ 1 < field⟩

/-- A magnitude and its half-way points over a common denominator. -/
structure Interval where
  (low value high denominator : Nat)
  closed : Bool

/-- The half-way points around a magnitude. -/
def Binary.interval (b : Binary) : Interval :=
  let up := Nat.pow 2 (b.exponent - 2).toNat
  let down := Nat.pow 2 (2 - b.exponent).toNat
  let m := 4 * b.mantissa
  ⟨(m - if b.narrowBelow then 1 else 2) * up, m * up, (m + 2) * up, down, b.mantissa % 2 = 0⟩

/-- Whether `digits * 10 ^ scale` reads back as the interval's number. -/
def Interval.contains (i : Interval) (digits : Nat) (scale : Int) : Bool :=
  let d := digits * Nat.pow 10 scale.toNat * i.denominator
  let s := Nat.pow 10 (-scale).toNat
  if i.closed then i.low * s ≤ d && d ≤ i.high * s else i.low * s < d && d < i.high * s

/-- The least `e` from `start` on, among `fuel` candidates, with the number below `10 ^ e`. -/
def Interval.magnitude (i : Interval) : Nat → Int → Int
  | 0, e => e
  | fuel + 1, e =>
    if i.value * Nat.pow 10 (-e).toNat < Nat.pow 10 e.toNat * i.denominator then e
    else i.magnitude fuel (e + 1)

/-- The decimal of `count` digits below `10 ^ e` that is nearest and reads back, if one does. -/
def Interval.nearest? (i : Interval) (e : Int) (count : Nat) : Option Nat :=
  let scale := e - count
  let numerator := i.value * Nat.pow 10 (-scale).toNat
  let unit := i.denominator * Nat.pow 10 scale.toNat
  let below := numerator / unit
  let rest := numerator % unit
  let nearer := if 2 * rest < unit ∨ (2 * rest = unit ∧ below % 2 = 0) then below else below + 1
  let other := 2 * below + 1 - nearer
  if i.contains nearer scale then some nearer
  else if i.contains other scale then some other
  else none

/-- The shortest digits `d` and the exponent `e` of a positive magnitude: it reads back from
`0.d * 10 ^ e`. -/
def shortest (b : Binary) : List Char × Int :=
  let i := b.interval
  let e := i.magnitude 700 (-330)
  let counts := (List.range 17).map (· + 1)
  match counts.findSome? fun n => (i.nearest? e n).map fun d => (n, d) with
  | some (n, d) =>
    -- rounding up may have made one digit more
    let ds := (Nat.repr d).toList
    (ds, e + (ds.length - n : Int))
  | none => ([], e)

/-- Digits without the zeros at their end. -/
def trimZeros (ds : List Char) : List Char := (ds.reverse.dropWhile (· = '0')).reverse

/-- At least two digits of an exponent, after its sign. -/
def exponentText (n : Int) : List Char :=
  let ds := (Nat.repr n.natAbs).toList
  (if n < 0 then '-' else '+') :: (if ds.length < 2 then '0' :: ds else ds)

/-- A positive number from its digits and exponent: positional from a ten-thousandth up to
sixteen digits before the point, else with one digit before the point and an exponent. -/
def layout (ds : List Char) (e : Int) : List Char :=
  if -4 < e ∧ e ≤ 0 then '0' :: '.' :: (List.replicate (-e).toNat '0' ++ ds)
  else if 0 < e ∧ e ≤ 16 then
    let n := e.toNat
    if ds.length ≤ n then ds ++ List.replicate (n - ds.length) '0' ++ ['.', '0']
    else ds.take n ++ '.' :: ds.drop n
  else
    let tail := ds.drop 1
    ds.take 1 ++ (if tail = [] then [] else '.' :: tail) ++ 'e' :: exponentText (e - 1)

/-- The shortest text that reads back as a number. -/
def text (x : Float) : String :=
  let negative := Nat.pow 2 63 ≤ x.toBits.toNat
  if x.isNaN then "nan"
  else
    let magnitude :=
      if x.isInf then "inf".toList
      else if x.toBits.toNat % Nat.pow 2 63 = 0 then "0.0".toList
      else
        let r := shortest (Binary.ofFloat x)
        layout (trimZeros r.1) r.2
    String.ofList (if negative then '-' :: magnitude else magnitude)

/-- A finite number without its fraction. -/
def truncate (x : Float) : Int :=
  let b := Binary.ofFloat x
  let n : Nat := b.mantissa * Nat.pow 2 b.exponent.toNat / Nat.pow 2 (-b.exponent).toNat
  if Nat.pow 2 63 ≤ x.toBits.toNat then -(n : Int) else n

def isWhole (x : Float) : Bool :=
  let b := Binary.ofFloat x
  !x.isNaN && !x.isInf &&
    b.mantissa * Nat.pow 2 b.exponent.toNat % Nat.pow 2 (-b.exponent).toNat = 0

end SealedMetadata.Decimal
