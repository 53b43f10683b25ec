import SealedMetadata.Hash.Padding

/-!
MD4 on byte strings.
-/

namespace SealedMetadata.Md4

/-- The four chaining words. -/
structure State where
  (a b c d : UInt32)
  deriving DecidableEq

@[inline] def rotl (x n : UInt32) : UInt32 := (x <<< n) ||| (x >>> (32 - n))

/-- One of the three passes over a block: how it mixes three words, its additive constant, the
order in which it takes the block's words, and the four rotations that its steps use in turn. -/
structure Pass where
  mix : UInt32 → UInt32 → UInt32 → UInt32
  constant : UInt32
  order : List Nat
  rotations : List UInt32

/-- The three passes in order. -/
def passes : List Pass :=
  [⟨fun x y z => (x &&& y) ||| (~~~x &&& z), 0,
      [0, 1, 2, 3, 4, 5, 6, 7, 8, 9, 10, 11, 12, 13, 14, 15], [3, 7, 11, 19]⟩,
    ⟨fun x y z => (x &&& y) ||| (x &&& z) ||| (y &&& z), 0x5a827999,
      [0, 4, 8, 12, 1, 5, 9, 13, 2, 6, 10, 14, 3, 7, 11, 15], [3, 5, 9, 13]⟩,
    ⟨fun x y z => x ^^^ y ^^^ z, 0x6ed9eba1,
      [0, 8, 4, 12, 2, 10, 6, 14, 1, 9, 5, 13, 3, 11, 7, 15], [3, 9, 11, 15]⟩]

/-- Step `i` of a pass, on word `j` of the block. -/
def Pass.step (p : Pass) (m : List UInt32) (s : State) (j i : Nat) : State :=
  let r := rotl (s.a + p.mix s.b s.c s.d + m.getD j 0 + p.constant) (p.rotations.getD (i % 4) 0)
  ⟨s.d, r, s.b, s.c⟩

/-- The sixteen steps of a pass. -/
def Pass.run (m : List UInt32) (s : State) (p : Pass) : State :=
  p.order.zipIdx.foldl (fun s ji => p.step m s ji.1 ji.2) s

/-- The state after one more block of sixteen words. -/
def compress (s : State) (m : List UInt32) : State :=
  let r := passes.foldl (Pass.run m) s
  ⟨s.a + r.a, s.b + r.b, s.c + r.c, s.d + r.d⟩

/-- The state after a list of words, sixteen to a block. -/
def absorb (s : State) : List UInt32 → State
  | w₀ :: w₁ :: w₂ :: w₃ :: w₄ :: w₅ :: w₆ :: w₇ :: w₈ :: w₉ :: w₁₀ :: w₁₁ ::
      w₁₂ :: w₁₃ :: w₁₄ :: w₁₅ :: rest =>
    absorb (compress s
      [w₀, w₁, w₂, w₃, w₄, w₅, w₆, w₇, w₈, w₉, w₁₀, w₁₁, w₁₂, w₁₃, w₁₄, w₁₅]) rest
  | _ => s

def initial : State := ⟨0x67452301, 0xefcdab89, 0x98badcfe, 0x10325476⟩

/-- The chaining words as bytes. -/
def State.bytes (s : State) : Bytes := [s.a, s.b, s.c, s.d].flatMap Bytes.ofWord32LE

def digest (m : Bytes) : Bytes :=
  (absorb initial
    (Bytes.words32LE (m ++ Hash.ending 64 8 (Bytes.ofNatLE 8) m.length))).bytes

@[simp] theorem length_digest (m : Bytes) : (digest m).length = 16 := by
  simp [digest, State.bytes, Bytes.ofWord32LE]

end SealedMetadata.Md4
