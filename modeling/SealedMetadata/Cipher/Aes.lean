import SealedMetadata.Bytes

/-!
The AES block cipher with keys of 256 bits. A block is four columns of four bytes. Encryption
and decryption follow the same list of round keys, and each layer of a round has its inverse
beside it.
-/

namespace SealedMetadata.Aes

/-- Four bytes of a block, top to bottom. -/
structure Column where
  (b₀ b₁ b₂ b₃ : UInt8)
  deriving DecidableEq

/-- The four columns of a block. -/
structure Block where
  (c₀ c₁ c₂ c₃ : Column)
  deriving DecidableEq

def Column.xor (x y : Column) : Column :=
  ⟨x.b₀ ^^^ y.b₀, x.b₁ ^^^ y.b₁, x.b₂ ^^^ y.b₂, x.b₃ ^^^ y.b₃⟩

def Block.xor (x y : Block) : Block :=
  ⟨x.c₀.xor y.c₀, x.c₁.xor y.c₁, x.c₂.xor y.c₂, x.c₃.xor y.c₃⟩

def Block.zero : Block := ⟨⟨0, 0, 0, 0⟩, ⟨0, 0, 0, 0⟩, ⟨0, 0, 0, 0⟩, ⟨0, 0, 0, 0⟩⟩

def Column.bytes (x : Column) : Bytes := [x.b₀, x.b₁, x.b₂, x.b₃]

/-- The bytes of a block, column after column. -/
def Block.bytes (x : Block) : Bytes := x.c₀.bytes ++ x.c₁.bytes ++ x.c₂.bytes ++ x.c₃.bytes

@[simp] theorem length_bytes (x : Block) : x.bytes.length = 16 := by
  simp [Block.bytes, Column.bytes]

/-- The columns that a byte string spells four bytes at a time. -/
def columns : Bytes → List Column
  | b₀ :: b₁ :: b₂ :: b₃ :: rest => ⟨b₀, b₁, b₂, b₃⟩ :: columns rest
  | _ => []

/-- The blocks that a byte string spells, if it is a whole number of them. -/
def blocks? : Bytes → Option (List Block)
  | [] => some []
  | a₀ :: a₁ :: a₂ :: a₃ :: b₀ :: b₁ :: b₂ :: b₃ ::
      c₀ :: c₁ :: c₂ :: c₃ :: d₀ :: d₁ :: d₂ :: d₃ :: rest => do
    let xs ← blocks? rest
    return ⟨⟨a₀, a₁, a₂, a₃⟩, ⟨b₀, b₁, b₂, b₃⟩, ⟨c₀, c₁, c₂, c₃⟩, ⟨d₀, d₁, d₂, d₃⟩⟩ :: xs
  | _ => none

/-- The substitution box: a row for each high half of a byte, a column for each low half. -/
def substitution : List (List UInt8) :=
  [[0x63, 0x7c, 0x77, 0x7b, 0xf2, 0x6b, 0x6f, 0xc5, 0x30, 0x01, 0x67, 0x2b, 0xfe, 0xd7, 0xab, 0x76],
   [0xca, 0x82, 0xc9, 0x7d, 0xfa, 0x59, 0x47, 0xf0, 0xad, 0xd4, 0xa2, 0xaf, 0x9c, 0xa4, 0x72, 0xc0],
   [0xb7, 0xfd, 0x93, 0x26, 0x36, 0x3f, 0xf7, 0xcc, 0x34, 0xa5, 0xe5, 0xf1, 0x71, 0xd8, 0x31, 0x15],
   [0x04, 0xc7, 0x23, 0xc3, 0x18, 0x96, 0x05, 0x9a, 0x07, 0x12, 0x80, 0xe2, 0xeb, 0x27, 0xb2, 0x75],
   [0x09, 0x83, 0x2c, 0x1a, 0x1b, 0x6e, 0x5a, 0xa0, 0x52, 0x3b, 0xd6, 0xb3, 0x29, 0xe3, 0x2f, 0x84],
   [0x53, 0xd1, 0x00, 0xed, 0x20, 0xfc, 0xb1, 0x5b, 0x6a, 0xcb, 0xbe, 0x39, 0x4a, 0x4c, 0x58, 0xcf],
   [0xd0, 0xef, 0xaa, 0xfb, 0x43, 0x4d, 0x33, 0x85, 0x45, 0xf9, 0x02, 0x7f, 0x50, 0x3c, 0x9f, 0xa8],
   [0x51, 0xa3, 0x40, 0x8f, 0x92, 0x9d, 0x38, 0xf5, 0xbc, 0xb6, 0xda, 0x21, 0x10, 0xff, 0xf3, 0xd2],
   [0xcd, 0x0c, 0x13, 0xec, 0x5f, 0x97, 0x44, 0x17, 0xc4, 0xa7, 0x7e, 0x3d, 0x64, 0x5d, 0x19, 0x73],
   [0x60, 0x81, 0x4f, 0xdc, 0x22, 0x2a, 0x90, 0x88, 0x46, 0xee, 0xb8, 0x14, 0xde, 0x5e, 0x0b, 0xdb],
   [0xe0, 0x32, 0x3a, 0x0a, 0x49, 0x06, 0x24, 0x5c, 0xc2, 0xd3, 0xac, 0x62, 0x91, 0x95, 0xe4, 0x79],
   [0xe7, 0xc8, 0x37, 0x6d, 0x8d, 0xd5, 0x4e, 0xa9, 0x6c, 0x56, 0xf4, 0xea, 0x65, 0x7a, 0xae, 0x08],
   [0xba, 0x78, 0x25, 0x2e, 0x1c, 0xa6, 0xb4, 0xc6, 0xe8, 0xdd, 0x74, 0x1f, 0x4b, 0xbd, 0x8b, 0x8a],
   [0x70, 0x3e, 0xb5, 0x66, 0x48, 0x03, 0xf6, 0x0e, 0x61, 0x35, 0x57, 0xb9, 0x86, 0xc1, 0x1d, 0x9e],
   [0xe1, 0xf8, 0x98, 0x11, 0x69, 0xd9, 0x8e, 0x94, 0x9b, 0x1e, 0x87, 0xe9, 0xce, 0x55, 0x28, 0xdf],
   [0x8c, 0xa1, 0x89, 0x0d, 0xbf, 0xe6, 0x42, 0x68, 0x41, 0x99, 0x2d, 0x0f, 0xb0, 0x54, 0xbb, 0x16]]

/-- The inverse of the substitution box, in the same order. -/
def unsubstitution : List (List UInt8) :=
  [[0x52, 0x09, 0x6a, 0xd5, 0x30, 0x36, 0xa5, 0x38, 0xbf, 0x40, 0xa3, 0x9e, 0x81, 0xf3, 0xd7, 0xfb],
   [0x7c, 0xe3, 0x39, 0x82, 0x9b, 0x2f, 0xff, 0x87, 0x34, 0x8e, 0x43, 0x44, 0xc4, 0xde, 0xe9, 0xcb],
   [0x54, 0x7b, 0x94, 0x32, 0xa6, 0xc2, 0x23, 0x3d, 0xee, 0x4c, 0x95, 0x0b, 0x42, 0xfa, 0xc3, 0x4e],
   [0x08, 0x2e, 0xa1, 0x66, 0x28, 0xd9, 0x24, 0xb2, 0x76, 0x5b, 0xa2, 0x49, 0x6d, 0x8b, 0xd1, 0x25],
   [0x72, 0xf8, 0xf6, 0x64, 0x86, 0x68, 0x98, 0x16, 0xd4, 0xa4, 0x5c, 0xcc, 0x5d, 0x65, 0xb6, 0x92],
   [0x6c, 0x70, 0x48, 0x50, 0xfd, 0xed, 0xb9, 0xda, 0x5e, 0x15, 0x46, 0x57, 0xa7, 0x8d, 0x9d, 0x84],
   [0x90, 0xd8, 0xab, 0x00, 0x8c, 0xbc, 0xd3, 0x0a, 0xf7, 0xe4, 0x58, 0x05, 0xb8, 0xb3, 0x45, 0x06],
   [0xd0, 0x2c, 0x1e, 0x8f, 0xca, 0x3f, 0x0f, 0x02, 0xc1, 0xaf, 0xbd, 0x03, 0x01, 0x13, 0x8a, 0x6b],
   [0x3a, 0x91, 0x11, 0x41, 0x4f, 0x67, 0xdc, 0xea, 0x97, 0xf2, 0xcf, 0xce, 0xf0, 0xb4, 0xe6, 0x73],
   [0x96, 0xac, 0x74, 0x22, 0xe7, 0xad, 0x35, 0x85, 0xe2, 0xf9, 0x37, 0xe8, 0x1c, 0x75, 0xdf, 0x6e],
   [0x47, 0xf1, 0x1a, 0x71, 0x1d, 0x29, 0xc5, 0x89, 0x6f, 0xb7, 0x62, 0x0e, 0xaa, 0x18, 0xbe, 0x1b],
   [0xfc, 0x56, 0x3e, 0x4b, 0xc6, 0xd2, 0x79, 0x20, 0x9a, 0xdb, 0xc0, 0xfe, 0x78, 0xcd, 0x5a, 0xf4],
   [0x1f, 0xdd, 0xa8, 0x33, 0x88, 0x07, 0xc7, 0x31, 0xb1, 0x12, 0x10, 0x59, 0x27, 0x80, 0xec, 0x5f],
   [0x60, 0x51, 0x7f, 0xa9, 0x19, 0xb5, 0x4a, 0x0d, 0x2d, 0xe5, 0x7a, 0x9f, 0x93, 0xc9, 0x9c, 0xef],
   [0xa0, 0xe0, 0x3b, 0x4d, 0xae, 0x2a, 0xf5, 0xb0, 0xc8, 0xeb, 0xbb, 0x3c, 0x83, 0x53, 0x99, 0x61],
   [0x17, 0x2b, 0x04, 0x7e, 0xba, 0x77, 0xd6, 0x26, 0xe1, 0x69, 0x14, 0x63, 0x55, 0x21, 0x0c, 0x7d]]

/-- The entry of a box for a byte. -/
def entry (box : List (List UInt8)) (b : UInt8) : UInt8 :=
  (box.getD (b >>> 4).toNat []).getD (b &&& 15).toNat 0

def substitute (b : UInt8) : UInt8 := entry substitution b

def unsubstitute (b : UInt8) : UInt8 := entry unsubstitution b

/-- Multiplication by two in the field of 256 elements. -/
def double (b : UInt8) : UInt8 := if b &&& 0x80 = 0 then b <<< 1 else (b <<< 1) ^^^ 0x1b

def triple (b : UInt8) : UInt8 := double b ^^^ b

def times9 (b : UInt8) : UInt8 := double (double (double b)) ^^^ b

def times11 (b : UInt8) : UInt8 := double (double (double b)) ^^^ double b ^^^ b

def times13 (b : UInt8) : UInt8 := double (double (double b)) ^^^ double (double b) ^^^ b

def times14 (b : UInt8) : UInt8 := double (double (double b)) ^^^ double (double b) ^^^ double b

/-- Substitution of each byte of a column. -/
def Column.substitute (x : Column) : Column :=
  ⟨Aes.substitute x.b₀, Aes.substitute x.b₁, Aes.substitute x.b₂, Aes.substitute x.b₃⟩

def Column.unsubstitute (x : Column) : Column :=
  ⟨Aes.unsubstitute x.b₀, Aes.unsubstitute x.b₁, Aes.unsubstitute x.b₂, Aes.unsubstitute x.b₃⟩

/-- A column times the fixed matrix. -/
def Column.mix (x : Column) : Column :=
  ⟨double x.b₀ ^^^ triple x.b₁ ^^^ x.b₂ ^^^ x.b₃, x.b₀ ^^^ double x.b₁ ^^^ triple x.b₂ ^^^ x.b₃,
    x.b₀ ^^^ x.b₁ ^^^ double x.b₂ ^^^ triple x.b₃, triple x.b₀ ^^^ x.b₁ ^^^ x.b₂ ^^^ double x.b₃⟩

/-- A column times the inverse of the fixed matrix. -/
def Column.unmix (x : Column) : Column :=
  ⟨times14 x.b₀ ^^^ times11 x.b₁ ^^^ times13 x.b₂ ^^^ times9 x.b₃,
    times9 x.b₀ ^^^ times14 x.b₁ ^^^ times11 x.b₂ ^^^ times13 x.b₃,
    times13 x.b₀ ^^^ times9 x.b₁ ^^^ times14 x.b₂ ^^^ times11 x.b₃,
    times11 x.b₀ ^^^ times13 x.b₁ ^^^ times9 x.b₂ ^^^ times14 x.b₃⟩

def Block.map (f : Column → Column) (x : Block) : Block := ⟨f x.c₀, f x.c₁, f x.c₂, f x.c₃⟩

/-- Row `r` turned left by `r` places. -/
def Block.shift (x : Block) : Block :=
  ⟨⟨x.c₀.b₀, x.c₁.b₁, x.c₂.b₂, x.c₃.b₃⟩, ⟨x.c₁.b₀, x.c₂.b₁, x.c₃.b₂, x.c₀.b₃⟩,
    ⟨x.c₂.b₀, x.c₃.b₁, x.c₀.b₂, x.c₁.b₃⟩, ⟨x.c₃.b₀, x.c₀.b₁, x.c₁.b₂, x.c₂.b₃⟩⟩

/-- Row `r` turned right by `r` places. -/
def Block.unshift (x : Block) : Block :=
  ⟨⟨x.c₀.b₀, x.c₃.b₁, x.c₂.b₂, x.c₁.b₃⟩, ⟨x.c₁.b₀, x.c₀.b₁, x.c₃.b₂, x.c₂.b₃⟩,
    ⟨x.c₂.b₀, x.c₁.b₁, x.c₀.b₂, x.c₃.b₃⟩, ⟨x.c₃.b₀, x.c₂.b₁, x.c₁.b₂, x.c₀.b₃⟩⟩

/-- The rounds that follow the first round key: the last of them does not mix. -/
def rounds : List Block → Block → Block
  | [], x => x
  | [k], x => ((x.map .substitute).shift).xor k
  | k :: ks, x => rounds ks ((((x.map .substitute).shift).map .mix).xor k)

/-- The rounds undone, last one first. -/
def unrounds : List Block → Block → Block
  | [], x => x
  | [k], x => (x.xor k).unshift.map .unsubstitute
  | k :: ks, x => (((unrounds ks x).xor k).map .unmix).unshift.map .unsubstitute

def encrypt : List Block → Block → Block
  | [], x => x
  | k :: ks, x => rounds ks (x.xor k)

def decrypt : List Block → Block → Block
  | [], x => x
  | k :: ks, x => (unrounds ks x).xor k

/-- Two consecutive round keys. -/
structure KeyPair where
  (first second : Block)

/-- The two round keys after a pair, `constant` being the next power of two. -/
def KeyPair.next (k : KeyPair) (constant : UInt8) : KeyPair :=
  let t := k.second.c₃
  let a₀ := k.first.c₀.xor (Column.substitute ⟨t.b₁, t.b₂, t.b₃, t.b₀⟩) |>.xor ⟨constant, 0, 0, 0⟩
  let a₁ := k.first.c₁.xor a₀
  let a₂ := k.first.c₂.xor a₁
  let a₃ := k.first.c₃.xor a₂
  -- the second key starts without turn and constant
  let b₀ := k.second.c₀.xor a₃.substitute
  let b₁ := k.second.c₁.xor b₀
  let b₂ := k.second.c₂.xor b₁
  ⟨⟨a₀, a₁, a₂, a₃⟩, ⟨b₀, b₁, b₂, k.second.c₃.xor b₂⟩⟩

/-- The round keys of a pair and of those that follow it, one for each constant. -/
def KeyPair.expand (k : KeyPair) : List UInt8 → List Block
  | [] => [k.first, k.second]
  | constant :: rest => k.first :: k.second :: (k.next constant).expand rest

/-- The fifteen round keys of a key of thirty-two bytes. Shorter keys have none. -/
def roundKeys (key : Bytes) : List Block :=
  match columns key with
  | [a₀, a₁, a₂, a₃, b₀, b₁, b₂, b₃] =>
    ((KeyPair.mk ⟨a₀, a₁, a₂, a₃⟩ ⟨b₀, b₁, b₂, b₃⟩).expand [1, 2, 4, 8, 16, 32, 64]).take 15
  | _ => []

end SealedMetadata.Aes
