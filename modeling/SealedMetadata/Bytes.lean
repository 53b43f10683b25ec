/-!
Byte strings, and the words of 32 and 64 bits that they spell in either byte order.
-/

namespace SealedMetadata

abbrev Bytes := List UInt8

namespace Bytes

/-- The bytewise exclusive or of two byte strings, as long as the shorter one. -/
def xor (x y : Bytes) : Bytes := List.zipWith (· ^^^ ·) x y

@[simp] theorem length_xor (x y : Bytes) : (x.xor y).length = min x.length y.length := by
  simp [xor]

/-- The `width` low bytes of a number, least significant first. -/
def ofNatLE : Nat → Nat → Bytes
  | 0, _ => []
  | width + 1, n => UInt8.ofNat n :: ofNatLE width (n / 256)

@[simp] theorem length_ofNatLE (width n : Nat) : (ofNatLE width n).length = width := by
  induction width generalizing n with
  | zero => rfl
  | succ width ih => simp [ofNatLE, ih]

/-- The `width` low bytes of a number, most significant first. -/
def ofNatBE (width n : Nat) : Bytes := (ofNatLE width n).reverse

@[simp] theorem length_ofNatBE (width n : Nat) : (ofNatBE width n).length = width := by
  simp [ofNatBE]

/-- Four bytes of a word, most significant first. -/
def ofWord32BE (w : UInt32) : Bytes :=
  [(w >>> 24).toUInt8, (w >>> 16).toUInt8, (w >>> 8).toUInt8, w.toUInt8]

def ofWord32LE (w : UInt32) : Bytes :=
  [w.toUInt8, (w >>> 8).toUInt8, (w >>> 16).toUInt8, (w >>> 24).toUInt8]

def ofWord64BE (w : UInt64) : Bytes :=
  [(w >>> 56).toUInt8, (w >>> 48).toUInt8, (w >>> 40).toUInt8, (w >>> 32).toUInt8,
    (w >>> 24).toUInt8, (w >>> 16).toUInt8, (w >>> 8).toUInt8, w.toUInt8]

/-- The word that four bytes spell, most significant first. -/
def word32BE (b₀ b₁ b₂ b₃ : UInt8) : UInt32 :=
  b₀.toUInt32 <<< 24 ||| b₁.toUInt32 <<< 16 ||| b₂.toUInt32 <<< 8 ||| b₃.toUInt32

def word64BE (b₀ b₁ b₂ b₃ b₄ b₅ b₆ b₇ : UInt8) : UInt64 :=
  b₀.toUInt64 <<< 56 ||| b₁.toUInt64 <<< 48 ||| b₂.toUInt64 <<< 40 ||| b₃.toUInt64 <<< 32 |||
    b₄.toUInt64 <<< 24 ||| b₅.toUInt64 <<< 16 ||| b₆.toUInt64 <<< 8 ||| b₇.toUInt64

/-- The words that a byte string spells four bytes at a time, most significant first. -/
def words32BE : Bytes → List UInt32
  | b₀ :: b₁ :: b₂ :: b₃ :: rest => word32BE b₀ b₁ b₂ b₃ :: words32BE rest
  | _ => []

def words32LE : Bytes → List UInt32
  | b₀ :: b₁ :: b₂ :: b₃ :: rest => word32BE b₃ b₂ b₁ b₀ :: words32LE rest
  | _ => []

def words64BE : Bytes → List UInt64
  | b₀ :: b₁ :: b₂ :: b₃ :: b₄ :: b₅ :: b₆ :: b₇ :: rest =>
    word64BE b₀ b₁ b₂ b₃ b₄ b₅ b₆ b₇ :: words64BE rest
  | _ => []

end Bytes

end SealedMetadata
