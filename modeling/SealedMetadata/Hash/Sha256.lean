import SealedMetadata.Hash.Padding

/-!
SHA-256 on byte strings.
A block's sixteen words form a window that moves by one word a round, so a round needs nothing
but its constant, the state and the window.
-/

namespace SealedMetadata.Sha256

/-- The eight chaining words. -/
structure State where
  (a b c d e f g h : UInt32)
  deriving DecidableEq

/-- Sixteen consecutive words of the message schedule. -/
structure Window where
  (w₀ w₁ w₂ w₃ w₄ w₅ w₆ w₇ w₈ w₉ w₁₀ w₁₁ w₁₂ w₁₃ w₁₄ w₁₅ : UInt32)

@[inline] def rotr (x n : UInt32) : UInt32 := (x >>> n) ||| (x <<< (32 - n))

/-- One round for each constant; the window moves by one word each time. -/
def rounds : List UInt32 → State → Window → State
  | [], s, _ => s
  | k :: ks, ⟨a, b, c, d, e, f, g, h⟩,
      ⟨w₀, w₁, w₂, w₃, w₄, w₅, w₆, w₇,
        w₈, w₉, w₁₀, w₁₁, w₁₂, w₁₃, w₁₄, w₁₅⟩ =>
    let t₁ := h + (rotr e 6 ^^^ rotr e 11 ^^^ rotr e 25) + ((e &&& f) ^^^ (~~~e &&& g)) + k + w₀
    let t₂ := (rotr a 2 ^^^ rotr a 13 ^^^ rotr a 22) + ((a &&& b) ^^^ (a &&& c) ^^^ (b &&& c))
    -- the schedule's next word, from the words 2, 7, 15 and 16 places before it
    let w := (rotr w₁₄ 17 ^^^ rotr w₁₄ 19 ^^^ (w₁₄ >>> 10)) + w₉ +
      (rotr w₁ 7 ^^^ rotr w₁ 18 ^^^ (w₁ >>> 3)) + w₀
    rounds ks ⟨t₁ + t₂, a, b, c, d + t₁, e, f, g⟩
      ⟨w₁, w₂, w₃, w₄, w₅, w₆, w₇, w₈,
        w₉, w₁₀, w₁₁, w₁₂, w₁₃, w₁₄, w₁₅, w⟩

def constants : List UInt32 :=
  [0x428a2f98, 0x71374491, 0xb5c0fbcf, 0xe9b5dba5, 0x3956c25b, 0x59f111f1,
   0x923f82a4, 0xab1c5ed5, 0xd807aa98, 0x12835b01, 0x243185be, 0x550c7dc3,
   0x72be5d74, 0x80deb1fe, 0x9bdc06a7, 0xc19bf174, 0xe49b69c1, 0xefbe4786,
   0x0fc19dc6, 0x240ca1cc, 0x2de92c6f, 0x4a7484aa, 0x5cb0a9dc, 0x76f988da,
   0x983e5152, 0xa831c66d, 0xb00327c8, 0xbf597fc7, 0xc6e00bf3, 0xd5a79147,
   0x06ca6351, 0x14292967, 0x27b70a85, 0x2e1b2138, 0x4d2c6dfc, 0x53380d13,
   0x650a7354, 0x766a0abb, 0x81c2c92e, 0x92722c85, 0xa2bfe8a1, 0xa81a664b,
   0xc24b8b70, 0xc76c51a3, 0xd192e819, 0xd6990624, 0xf40e3585, 0x106aa070,
   0x19a4c116, 0x1e376c08, 0x2748774c, 0x34b0bcb5, 0x391c0cb3, 0x4ed8aa4a,
   0x5b9cca4f, 0x682e6ff3, 0x748f82ee, 0x78a5636f, 0x84c87814, 0x8cc70208,
   0x90befffa, 0xa4506ceb, 0xbef9a3f7, 0xc67178f2]

/-- The state after one more block. -/
def compress (s : State) (m : Window) : State :=
  let r := rounds constants s m
  ⟨s.a + r.a, s.b + r.b, s.c + r.c, s.d + r.d, s.e + r.e, s.f + r.f, s.g + r.g, s.h + r.h⟩

/-- The state after a list of words, sixteen to a block. -/
def absorb (s : State) : List UInt32 → State
  | w₀ :: w₁ :: w₂ :: w₃ :: w₄ :: w₅ :: w₆ :: w₇ :: w₈ :: w₉ :: w₁₀ :: w₁₁ ::
      w₁₂ :: w₁₃ :: w₁₄ :: w₁₅ :: rest =>
    absorb (compress s ⟨w₀, w₁, w₂, w₃, w₄, w₅, w₆, w₇,
      w₈, w₉, w₁₀, w₁₁, w₁₂, w₁₃, w₁₄, w₁₅⟩) rest
  | _ => s

/-- The state after a last part `m` of a message of which `before` bytes are absorbed already. -/
def finish (s : State) (before : Nat) (m : Bytes) : State :=
  absorb s (Bytes.words32BE (m ++ Hash.ending 64 8 (Bytes.ofNatBE 8) (before + m.length)))

def State.bytes (s : State) : Bytes :=
  [s.a, s.b, s.c, s.d, s.e, s.f, s.g, s.h].flatMap Bytes.ofWord32BE

@[simp] theorem length_bytes (s : State) : s.bytes.length = 32 := by
  simp [State.bytes, Bytes.ofWord32BE]

def initial : State :=
  ⟨0x6a09e667, 0xbb67ae85, 0x3c6ef372, 0xa54ff53a,
    0x510e527f, 0x9b05688c, 0x1f83d9ab, 0x5be0cd19⟩

def digest (m : Bytes) : Bytes := (finish initial 0 m).bytes

@[simp] theorem length_digest (m : Bytes) : (digest m).length = 32 := by simp [digest]

end SealedMetadata.Sha256
