import SealedMetadata.Hash.Padding

/-!
SHA-1 on byte strings. As in SHA-2, a block's sixteen words form a window that moves by one word
a round.
-/

namespace SealedMetadata.Sha1

/-- The five chaining words. -/
structure State where
  (a b c d e : UInt32)
  deriving DecidableEq

/-- Sixteen consecutive words of the message schedule. -/
structure Window where
  (w₀ w₁ w₂ w₃ w₄ w₅ w₆ w₇ w₈ w₉ w₁₀ w₁₁ w₁₂ w₁₃ w₁₄ w₁₅ : UInt32)

@[inline] def rotl (x n : UInt32) : UInt32 := (x <<< n) ||| (x >>> (32 - n))

/-- How a round mixes three words, and the constant that it adds. -/
inductive Phase
  | choose
  | parity
  | majority
  | lastParity

/-- The mixed word of a round. -/
def Phase.mix (x y z : UInt32) : Phase → UInt32
  | .choose => ((x &&& y) ||| (~~~x &&& z)) + 0x5a827999
  | .parity => (x ^^^ y ^^^ z) + 0x6ed9eba1
  | .majority => ((x &&& y) ||| (x &&& z) ||| (y &&& z)) + 0x8f1bbcdc
  | .lastParity => (x ^^^ y ^^^ z) + 0xca62c1d6

/-- The phases of the eighty rounds. -/
def phases : List Phase :=
  List.replicate 20 .choose ++ List.replicate 20 .parity ++ List.replicate 20 .majority ++
    List.replicate 20 .lastParity

/-- One round for each phase; the window moves by one word each time. -/
def rounds : List Phase → State → Window → State
  | [], s, _ => s
  | p :: ps, ⟨a, b, c, d, e⟩,
      ⟨w₀, w₁, w₂, w₃, w₄, w₅, w₆, w₇,
        w₈, w₉, w₁₀, w₁₁, w₁₂, w₁₃, w₁₄, w₁₅⟩ =>
    rounds ps ⟨rotl a 5 + p.mix b c d + e + w₀, a, rotl b 30, c, d⟩
      ⟨w₁, w₂, w₃, w₄, w₅, w₆, w₇, w₈,
        w₉, w₁₀, w₁₁, w₁₂, w₁₃, w₁₄, w₁₅,
        rotl (w₁₃ ^^^ w₈ ^^^ w₂ ^^^ w₀) 1⟩

/-- The state after one more block. -/
def compress (s : State) (m : Window) : State :=
  let r := rounds phases s m
  ⟨s.a + r.a, s.b + r.b, s.c + r.c, s.d + r.d, s.e + r.e⟩

/-- The state after a list of words, sixteen to a block. -/
def absorb (s : State) : List UInt32 → State
  | w₀ :: w₁ :: w₂ :: w₃ :: w₄ :: w₅ :: w₆ :: w₇ :: w₈ :: w₉ :: w₁₀ :: w₁₁ ::
      w₁₂ :: w₁₃ :: w₁₄ :: w₁₅ :: rest =>
    absorb (compress s ⟨w₀, w₁, w₂, w₃, w₄, w₅, w₆, w₇,
      w₈, w₉, w₁₀, w₁₁, w₁₂, w₁₃, w₁₄, w₁₅⟩) rest
  | _ => s

def initial : State := ⟨0x67452301, 0xefcdab89, 0x98badcfe, 0x10325476, 0xc3d2e1f0⟩

def State.bytes (s : State) : Bytes := [s.a, s.b, s.c, s.d, s.e].flatMap Bytes.ofWord32BE

def digest (m : Bytes) : Bytes :=
  (absorb initial
    (Bytes.words32BE (m ++ Hash.ending 64 8 (Bytes.ofNatBE 8) m.length))).bytes

@[simp] theorem length_digest (m : Bytes) : (digest m).length = 20 := by
  simp [digest, State.bytes, Bytes.ofWord32BE]

end SealedMetadata.Sha1
