import SealedMetadata.Alphanumeric
import SealedMetadata.Proofs.Bytes.ByteFacts
import SealedMetadata.Text.Utf8

/-!
ASCII text: its UTF-8 bytes are the codes of its characters, so ASCII bytes are kept by reading
them as text.
-/

namespace SealedMetadata

theorem Alphanumeric.pick_lt (b : UInt8) : pick b < 128 := by
  revert b
  apply forall_byte
  decide +kernel

namespace Utf8

theorem utf8EncodeChar_of_lt (b : UInt8) :
    b < 128 → String.utf8EncodeChar (Char.ofNat b.toNat) = [b] := by
  revert b
  apply forall_byte
  decide +kernel

theorem encode_ofList_of_lt {b : Bytes} (h : ∀ x ∈ b, x < 128) :
    encode (String.ofList (b.map fun x => Char.ofNat x.toNat)) = b := by
  have hbytes : (b.map fun x => Char.ofNat x.toNat).flatMap String.utf8EncodeChar = b := by
    induction b with
    | nil => rfl
    | cons x rest ih =>
      have hx := utf8EncodeChar_of_lt x (h x List.mem_cons_self)
      have hrest := ih fun y hy => h y (List.mem_cons_of_mem x hy)
      rw [List.map_cons, List.flatMap_cons, hx, hrest, List.singleton_append]
  rw [encode, String.toByteArray_ofList, List.utf8Encode, hbytes]
  simp

/-- A byte is the code of its character. -/
theorem toNat_char (b : UInt8) : (Char.ofNat b.toNat).toNat = b.toNat := by
  revert b
  apply forall_byte
  decide +kernel

theorem char_injective : Function.Injective fun b : UInt8 => Char.ofNat b.toNat := by
  intro b b' h
  have hcode := congrArg Char.toNat h
  rw [toNat_char, toNat_char] at hcode
  exact UInt8.toNat_inj.mp hcode

/-- The characters of ASCII bytes are theirs one by one. -/
theorem toList_of_decodeAscii? {b : Bytes} {s : String} (h : decodeAscii? b = some s) :
    s.toList = b.map fun x => Char.ofNat x.toNat := by
  rw [decodeAscii?] at h
  split at h
  · rw [← Option.some.inj h, String.toList_ofList]
  · cases h

/-- ASCII bytes are a text, and its bytes are these. -/
theorem exists_decodeAscii? {b : Bytes} (h : ∀ x ∈ b, x < 128) :
    ∃ s, decodeAscii? b = some s ∧ encode s = b := by
  have hall : b.all (· < 128) = true := by
    simpa using h
  exact ⟨_, if_pos hall, encode_ofList_of_lt h⟩

theorem decode?_eq_none_iff {b : Bytes} : decode? b = none ↔ ¬ ∃ s, encode s = b := by
  constructor
  · rintro h ⟨s, rfl⟩
    rw [decode?_encode] at h
    cases h
  · intro h
    cases hb : decode? b with
    | none => rfl
    | some s => exact absurd ⟨s, encode_of_decode?_eq_some hb⟩ h

end Utf8

end SealedMetadata
