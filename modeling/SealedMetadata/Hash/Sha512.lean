import SealedMetadata.Hash.Padding

/-!
SHA-512 on byte strings, and its variant of 384 bits.
A block's sixteen words form a window that moves by one word a round, so a round needs nothing
but its constant, the state and the window.
-/

namespace SealedMetadata.Sha512

/-- The eight chaining words. -/
structure State where
  (a b c d e f g h : UInt64)
  deriving DecidableEq

/-- Sixteen consecutive words of the message schedule. -/
structure Window where
  (w₀ w₁ w₂ w₃ w₄ w₅ w₆ w₇ w₈ w₉ w₁₀ w₁₁ w₁₂ w₁₃ w₁₄ w₁₅ : UInt64)

@[inline] def rotr (x n : UInt64) : UInt64 := (x >>> n) ||| (x <<< (64 - n))

/-- One round for each constant; the window moves by one word each time. -/
def rounds : List UInt64 → State → Window → State
  | [], s, _ => s
  | k :: ks, ⟨a, b, c, d, e, f, g, h⟩,
      ⟨w₀, w₁, w₂, w₃, w₄, w₅, w₆, w₇,
        w₈, w₉, w₁₀, w₁₁, w₁₂, w₁₃, w₁₄, w₁₅⟩ =>
    let t₁ := h + (rotr e 14 ^^^ rotr e 18 ^^^ rotr e 41) + ((e &&& f) ^^^ (~~~e &&& g)) + k + w₀
    let t₂ := (rotr a 28 ^^^ rotr a 34 ^^^ rotr a 39) + ((a &&& b) ^^^ (a &&& c) ^^^ (b &&& c))
    -- the schedule's next word, from the words 2, 7, 15 and 16 places before it
    let w := (rotr w₁₄ 19 ^^^ rotr w₁₄ 61 ^^^ (w₁₄ >>> 6)) + w₉ +
      (rotr w₁ 1 ^^^ rotr w₁ 8 ^^^ (w₁ >>> 7)) + w₀
    rounds ks ⟨t₁ + t₂, a, b, c, d + t₁, e, f, g⟩
      ⟨w₁, w₂, w₃, w₄, w₅, w₆, w₇, w₈,
        w₉, w₁₀, w₁₁, w₁₂, w₁₃, w₁₄, w₁₅, w⟩

def constants : List UInt64 :=
  [0x428a2f98d728ae22, 0x7137449123ef65cd, 0xb5c0fbcfec4d3b2f, 0xe9b5dba58189dbbc,
   0x3956c25bf348b538, 0x59f111f1b605d019, 0x923f82a4af194f9b, 0xab1c5ed5da6d8118,
   0xd807aa98a3030242, 0x12835b0145706fbe, 0x243185be4ee4b28c, 0x550c7dc3d5ffb4e2,
   0x72be5d74f27b896f, 0x80deb1fe3b1696b1, 0x9bdc06a725c71235, 0xc19bf174cf692694,
   0xe49b69c19ef14ad2, 0xefbe4786384f25e3, 0x0fc19dc68b8cd5b5, 0x240ca1cc77ac9c65,
   0x2de92c6f592b0275, 0x4a7484aa6ea6e483, 0x5cb0a9dcbd41fbd4, 0x76f988da831153b5,
   0x983e5152ee66dfab, 0xa831c66d2db43210, 0xb00327c898fb213f, 0xbf597fc7beef0ee4,
   0xc6e00bf33da88fc2, 0xd5a79147930aa725, 0x06ca6351e003826f, 0x142929670a0e6e70,
   0x27b70a8546d22ffc, 0x2e1b21385c26c926, 0x4d2c6dfc5ac42aed, 0x53380d139d95b3df,
   0x650a73548baf63de, 0x766a0abb3c77b2a8, 0x81c2c92e47edaee6, 0x92722c851482353b,
   0xa2bfe8a14cf10364, 0xa81a664bbc423001, 0xc24b8b70d0f89791, 0xc76c51a30654be30,
   0xd192e819d6ef5218, 0xd69906245565a910, 0xf40e35855771202a, 0x106aa07032bbd1b8,
   0x19a4c116b8d2d0c8, 0x1e376c085141ab53, 0x2748774cdf8eeb99, 0x34b0bcb5e19b48a8,
   0x391c0cb3c5c95a63, 0x4ed8aa4ae3418acb, 0x5b9cca4f7763e373, 0x682e6ff3d6b2b8a3,
   0x748f82ee5defb2fc, 0x78a5636f43172f60, 0x84c87814a1f0ab72, 0x8cc702081a6439ec,
   0x90befffa23631e28, 0xa4506cebde82bde9, 0xbef9a3f7b2c67915, 0xc67178f2e372532b,
   0xca273eceea26619c, 0xd186b8c721c0c207, 0xeada7dd6cde0eb1e, 0xf57d4f7fee6ed178,
   0x06f067aa72176fba, 0x0a637dc5a2c898a6, 0x113f9804bef90dae, 0x1b710b35131c471b,
   0x28db77f523047d84, 0x32caab7b40c72493, 0x3c9ebe0a15c9bebc, 0x431d67c49c100d4c,
   0x4cc5d4becb3e42b6, 0x597f299cfc657e2a, 0x5fcb6fab3ad6faec, 0x6c44198c4a475817]

/-- The state after one more block. -/
def compress (s : State) (m : Window) : State :=
  let r := rounds constants s m
  ⟨s.a + r.a, s.b + r.b, s.c + r.c, s.d + r.d, s.e + r.e, s.f + r.f, s.g + r.g, s.h + r.h⟩

/-- The state after a list of words, sixteen to a block. -/
def absorb (s : State) : List UInt64 → State
  | w₀ :: w₁ :: w₂ :: w₃ :: w₄ :: w₅ :: w₆ :: w₇ :: w₈ :: w₉ :: w₁₀ :: w₁₁ ::
      w₁₂ :: w₁₃ :: w₁₄ :: w₁₅ :: rest =>
    absorb (compress s ⟨w₀, w₁, w₂, w₃, w₄, w₅, w₆, w₇,
      w₈, w₉, w₁₀, w₁₁, w₁₂, w₁₃, w₁₄, w₁₅⟩) rest
  | _ => s

/-- The state after a last part `m` of a message of which `before` bytes are absorbed already. -/
def finish (s : State) (before : Nat) (m : Bytes) : State :=
  absorb s (Bytes.words64BE (m ++ Hash.ending 128 16 (Bytes.ofNatBE 16) (before + m.length)))

def State.bytes (s : State) : Bytes :=
  [s.a, s.b, s.c, s.d, s.e, s.f, s.g, s.h].flatMap Bytes.ofWord64BE

@[simp] theorem length_bytes (s : State) : s.bytes.length = 64 := by
  simp [State.bytes, Bytes.ofWord64BE]

def initial : State :=
  ⟨0x6a09e667f3bcc908, 0xbb67ae8584caa73b, 0x3c6ef372fe94f82b, 0xa54ff53a5f1d36f1,
    0x510e527fade682d1, 0x9b05688c2b3e6c1f, 0x1f83d9abfb41bd6b, 0x5be0cd19137e2179⟩

def digest (m : Bytes) : Bytes := (finish initial 0 m).bytes

@[simp] theorem length_digest (m : Bytes) : (digest m).length = 64 := by simp [digest]

/-- The state from which the 384-bit variant starts. -/
def initial384 : State :=
  ⟨0xcbbb9d5dc1059ed8, 0x629a292a367cd507, 0x9159015a3070dd17, 0x152fecd8f70e5939,
    0x67332667ffc00b31, 0x8eb44a8768581511, 0xdb0c2e0d64f98fa7, 0x47b5481dbefa4fa4⟩

/-- The 384-bit variant: another start, and the first six words of the result. -/
def digest384 (m : Bytes) : Bytes := (finish initial384 0 m).bytes.take 48

@[simp] theorem length_digest384 (m : Bytes) : (digest384 m).length = 48 := by simp [digest384]

end SealedMetadata.Sha512
