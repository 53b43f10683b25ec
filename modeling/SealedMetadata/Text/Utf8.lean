import SealedMetadata.Bytes

/-!
Text as bytes: UTF-8, and ASCII as the part of it below 128.
-/

namespace SealedMetadata.Utf8

/-- The UTF-8 bytes of a text. -/
def encode (s : String) : Bytes := s.toByteArray.data.toList

/-- The text whose UTF-8 bytes these are, if there is one. -/
def decode? (b : Bytes) : Option String := String.fromUTF8? ⟨b.toArray⟩

/-- The text of a byte string that is ASCII throughout. -/
def decodeAscii? (b : Bytes) : Option String :=
  if b.all (· < 128) then some (String.ofList (b.map fun x => Char.ofNat x.toNat)) else none

/-- The text of a byte string read as ASCII, with a replacement mark for every other byte. -/
def decodeLossy (b : Bytes) : String :=
  String.ofList (b.map fun x => if x < 128 then Char.ofNat x.toNat else '\uFFFD')

/-- Every text is read back from its bytes. -/
@[simp] theorem decode?_encode (s : String) : decode? (encode s) = some s := by
  have h : (⟨s.toByteArray.data.toList.toArray⟩ : ByteArray) = s.toByteArray := by simp
  rw [decode?, encode, h, String.fromUTF8?, dif_pos s.isValidUTF8]
  rfl

/-- Only the bytes of a text are read as it. -/
theorem encode_of_decode?_eq_some {b : Bytes} {s : String} (h : decode? b = some s) :
    encode s = b := by
  simp only [decode?, String.fromUTF8?] at h
  split at h
  · cases h
    simp [encode, String.fromUTF8]
  · cases h

theorem decode?_eq_some_iff {b : Bytes} {s : String} : decode? b = some s ↔ b = encode s :=
  ⟨fun h => (encode_of_decode?_eq_some h).symm, fun h => by rw [h, decode?_encode]⟩

end SealedMetadata.Utf8
