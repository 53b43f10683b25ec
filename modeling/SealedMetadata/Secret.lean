import SealedMetadata.Failure

/-!
Secrets as callers hand them in. Only their bytes count, whichever way they are held.
-/

namespace SealedMetadata

/-- A password, key, salt or secret text: open, or the content of a sealed buffer. -/
inductive Secret
  | text (s : String)
  | bytes (b : Bytes)
  | sealedBytes (b : Bytes)
  | sealedText (b : Bytes)

namespace Secret

def content : Secret → Bytes
  | text s => Utf8.encode s
  | bytes b | sealedBytes b | sealedText b => b

/-- Whether a secret has no bytes. -/
def isEmpty : Secret → Bool
  | text s => s.isEmpty
  | bytes b | sealedBytes b | sealedText b => b.isEmpty

/-- The text of a secret, if it is one. -/
def text? : Secret → Option String
  | text s => some s
  | bytes b | sealedBytes b | sealedText b => Utf8.decode? b

/-- A secret is empty or not by its bytes alone. -/
theorem isEmpty_eq (s : Secret) : s.isEmpty = s.content.isEmpty := by
  cases s with
  | text s =>
    rw [Bool.eq_iff_iff, isEmpty, content, Utf8.encode, List.isEmpty_iff, String.isEmpty_iff]
    constructor
    · rintro rfl
      rfl
    · intro h
      apply String.toByteArray_inj.mp
      apply ByteArray.ext
      simpa using h
  | bytes b | sealedBytes b | sealedText b => rfl

theorem isEmpty_iff {s : Secret} : s.isEmpty = true ↔ s.content = [] := by
  rw [isEmpty_eq, List.isEmpty_iff]

/-- A secret is a text or not by its bytes alone. -/
theorem text?_eq (s : Secret) : s.text? = Utf8.decode? s.content := by
  cases s with
  | text s => exact (Utf8.decode?_encode s).symm
  | bytes b | sealedBytes b | sealedText b => rfl

end Secret

/-- A secret that is read where its bytes are needed, which may fail. -/
abbrev UnreadSecret := Except Failure Secret

end SealedMetadata
