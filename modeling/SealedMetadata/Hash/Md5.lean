import SealedMetadata.Hash.Padding

/-!
MD5 on byte strings.
-/

namespace SealedMetadata.Md5

/-- The four chaining words. -/
structure State where
  (a b c d : UInt32)
  deriving DecidableEq

@[inline] def rotl (x n : UInt32) : UInt32 := (x <<< n) ||| (x >>> (32 - n))

/-- One of the four passes over a block: how it mixes three words, which word of the block each
step takes, and the four rotations that its steps use in turn. -/
structure Pass where
  mix : UInt32 → UInt32 → UInt32 → UInt32
  word : Nat → Nat
  rotations : List UInt32

/-- The four passes in order. -/
def passes : List Pass :=
  [⟨fun x y z => (x &&& y) ||| (~~~x &&& z), fun i => i, [7, 12, 17, 22]⟩,
    ⟨fun x y z => (x &&& z) ||| (y &&& ~~~z), fun i => (5 * i + 1) % 16, [5, 9, 14, 20]⟩,
    ⟨fun x y z => x ^^^ y ^^^ z, fun i => (3 * i + 5) % 16, [4, 11, 16, 23]⟩,
    ⟨fun x y z => y ^^^ (x ||| ~~~z), fun i => 7 * i % 16, [6, 10, 15, 21]⟩]

/-- One of the sixteen steps of a pass. -/
def Pass.step (p : Pass) (m : List UInt32) (s : State) (i : Nat) (k : UInt32) : State :=
  let r := rotl (s.a + p.mix s.b s.c s.d + m.getD (p.word i) 0 + k) (p.rotations.getD (i % 4) 0)
  ⟨s.d, s.b + r, s.b, s.c⟩

/-- The additive constants of the sixty-four steps. -/
def constants : List UInt32 :=
  [0xd76aa478, 0xe8c7b756, 0x242070db, 0xc1bdceee, 0xf57c0faf, 0x4787c62a,
   0xa8304613, 0xfd469501, 0x698098d8, 0x8b44f7af, 0xffff5bb1, 0x895cd7be,
   0x6b901122, 0xfd987193, 0xa679438e, 0x49b40821, 0xf61e2562, 0xc040b340,
   0x265e5a51, 0xe9b6c7aa, 0xd62f105d, 0x02441453, 0xd8a1e681, 0xe7d3fbc8,
   0x21e1cde6, 0xc33707d6, 0xf4d50d87, 0x455a14ed, 0xa9e3e905, 0xfcefa3f8,
   0x676f02d9, 0x8d2a4c8a, 0xfffa3942, 0x8771f681, 0x6d9d6122, 0xfde5380c,
   0xa4beea44, 0x4bdecfa9, 0xf6bb4b60, 0xbebfbc70, 0x289b7ec6, 0xeaa127fa,
   0xd4ef3085, 0x04881d05, 0xd9d4d039, 0xe6db99e5, 0x1fa27cf8, 0xc4ac5665,
   0xf4292244, 0x432aff97, 0xab9423a7, 0xfc93a039, 0x655b59c3, 0x8f0ccc92,
   0xffeff47d, 0x85845dd1, 0x6fa87e4f, 0xfe2ce6e0, 0xa3014314, 0x4e0811a1,
   0xf7537e82, 0xbd3af235, 0x2ad7d2bb, 0xeb86d391]

/-- Sixteen steps for each pass, each with its own constant. -/
def steps (m : List UInt32) : List Pass → List UInt32 → State → State
  | [], _, s => s
  | p :: ps, ks, s =>
    steps m ps (ks.drop 16)
      ((ks.take 16).zipIdx.foldl (fun s ki => p.step m s ki.2 ki.1) s)

/-- The state after one more block of sixteen words. -/
def compress (s : State) (m : List UInt32) : State :=
  let r := steps m passes constants s
  ⟨s.a + r.a, s.b + r.b, s.c + r.c, s.d + r.d⟩

/-- The state after a list of words, sixteen to a block. -/
def absorb (s : State) : List UInt32 → State
  | w₀ :: w₁ :: w₂ :: w₃ :: w₄ :: w₅ :: w₆ :: w₇ :: w₈ :: w₉ :: w₁₀ :: w₁₁ ::
      w₁₂ :: w₁₃ :: w₁₄ :: w₁₅ :: rest =>
    absorb (compress s
      [w₀, w₁, w₂, w₃, w₄, w₅, w₆, w₇, w₈, w₉, w₁₀, w₁₁, w₁₂, w₁₃, w₁₄, w₁₅]) rest
  | _ => s

def initial : State := ⟨0x67452301, 0xefcdab89, 0x98badcfe, 0x10325476⟩

def State.bytes (s : State) : Bytes := [s.a, s.b, s.c, s.d].flatMap Bytes.ofWord32LE

def digest (m : Bytes) : Bytes :=
  (absorb initial
    (Bytes.words32LE (m ++ Hash.ending 64 8 (Bytes.ofNatLE 8) m.length))).bytes

@[simp] theorem length_digest (m : Bytes) : (digest m).length = 16 := by
  simp [digest, State.bytes, Bytes.ofWord32LE]

end SealedMetadata.Md5
