import SealedMetadata.Cipher.Aes

/-!
AES in counter mode with an authentication tag, for nonces of twelve bytes and no additional
data. The tag is sixteen bytes and follows the encrypted text.
-/

namespace SealedMetadata.Gcm

open Aes (Block)

/-- A polynomial over two elements of degree below 128: the first bit of `hi` is its constant. -/
structure Element where
  (hi lo : UInt64)
  deriving DecidableEq

def Element.add (x y : Element) : Element := ⟨x.hi ^^^ y.hi, x.lo ^^^ y.lo⟩

/-- The product with the variable, reduced. -/
def Element.shift (x : Element) : Element :=
  let hi := x.hi >>> 1
  let lo := x.lo >>> 1 ||| x.hi <<< 63
  if x.lo &&& 1 = 0 then ⟨hi, lo⟩ else ⟨hi ^^^ 0xe100000000000000, lo⟩

/-- The sum of `acc` and the products of `y` with the powers of the variable that the first
`count` bits of a word name; and `y` times the variable to the `count`. -/
def Element.mulWord : Nat → UInt64 → Element → Element → Element × Element
  | 0, _, y, acc => (acc, y)
  | count + 1, word, y, acc =>
    mulWord count (word <<< 1) y.shift (if word >>> 63 = 0 then acc else acc.add y)

def Element.mul (x y : Element) : Element :=
  let r := Element.mulWord 64 x.hi y ⟨0, 0⟩
  (Element.mulWord 64 x.lo r.2 r.1).1

/-- The polynomials that a byte string spells sixteen bytes at a time, the last one filled up
with zeros. -/
def elements (b : Bytes) : List Element :=
  go (Bytes.words64BE (b ++ List.replicate ((16 - b.length % 16) % 16) 0))
where
  /-- Two words to a polynomial. -/
  go : List UInt64 → List Element
    | hi :: lo :: rest => ⟨hi, lo⟩ :: go rest
    | _ => []

/-- The polynomials' weighted sum: Horner's rule at `h`. -/
def hash (h : Element) (xs : List Element) : Element :=
  xs.foldl (fun acc x => (acc.add x).mul h) ⟨0, 0⟩

/-- The encryption of the nonce with a counter of four bytes. -/
def counterBlock (keys : List Block) (nonce : Bytes) (counter : Nat) : Bytes :=
  match Aes.blocks? (nonce ++ Bytes.ofNatBE 4 counter) with
  | some [b] => (Aes.encrypt keys b).bytes
  | _ => []

/-- At least `count` bytes of key stream: the counter starts at two. -/
def keyStream (keys : List Block) (nonce : Bytes) (count : Nat) : Bytes :=
  (List.range ((count + 15) / 16)).flatMap fun i => counterBlock keys nonce (i + 2)

/-- The text added to the key stream. It is its own inverse. -/
def mask (keys : List Block) (nonce text : Bytes) : Bytes :=
  text.xor (keyStream keys nonce text.length)

/-- The tag of an encrypted text. -/
def tag (keys : List Block) (nonce body : Bytes) : Bytes :=
  let h := elements (Aes.encrypt keys .zero).bytes
  -- the lengths in bits, of no additional data and of the encrypted text, come last
  let s := hash (h.getD 0 ⟨0, 0⟩) (elements body ++ [⟨0, (8 * body.length).toUInt64⟩])
  (counterBlock keys nonce 1).xor (Bytes.ofWord64BE s.hi ++ Bytes.ofWord64BE s.lo)

def encrypt (key nonce text : Bytes) : Bytes :=
  let keys := Aes.roundKeys key
  let body := mask keys nonce text
  body ++ tag keys nonce body

/-- The text of an encryption whose tag is right. -/
def decrypt? (key nonce body : Bytes) : Option Bytes :=
  let keys := Aes.roundKeys key
  let size := body.length - 16
  let masked := body.take size
  if 16 ≤ body.length ∧ body.drop size = tag keys nonce masked then some (mask keys nonce masked)
  else none

end SealedMetadata.Gcm
