import SealedMetadata.Bytes

/-!
Randomness as an endless stream of bytes that is read from a cursor on.
-/

namespace SealedMetadata

/-- A stream of random bytes and the place of the next one. -/
structure RandomSource where
  stream : Nat → UInt8
  cursor : Nat

namespace RandomSource

/-- The source that repeats a pattern of bytes, or zero if the pattern is empty. -/
def cycle (pattern : Bytes) : RandomSource :=
  let bytes := pattern.toArray
  ⟨fun i => bytes.getD (i % bytes.size) 0, 0⟩

/-- The next `count` bytes. -/
def peek (r : RandomSource) (count : Nat) : Bytes :=
  (List.range count).map fun i => r.stream (r.cursor + i)

/-- The source after `count` bytes. -/
def advance (r : RandomSource) (count : Nat) : RandomSource := { r with cursor := r.cursor + count }

@[simp] theorem length_peek (r : RandomSource) (count : Nat) : (r.peek count).length = count := by
  simp [peek]

@[simp] theorem cursor_advance (r : RandomSource) (count : Nat) :
    (r.advance count).cursor = r.cursor + count := rfl

@[simp] theorem stream_advance (r : RandomSource) (count : Nat) :
    (r.advance count).stream = r.stream := rfl

end RandomSource

end SealedMetadata
