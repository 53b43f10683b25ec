import SealedMetadata.Bytes

/-!
Lower-case hexadecimal: two digits a byte.
-/

namespace SealedMetadata.Hex

/-- The digit for a value below sixteen. -/
def digit (n : UInt8) : Char :=
  Char.ofNat (if n < 10 then 48 + n.toNat else 87 + n.toNat)

/-- The digits of a byte string, high half of each byte first. -/
def digits : Bytes → List Char
  | [] => []
  | b :: rest => digit (b >>> 4) :: digit (b &&& 15) :: digits rest

def encode (b : Bytes) : String := String.ofList (digits b)

/-- The hexadecimal text of a byte string, as ASCII bytes. -/
def encodeBytes (b : Bytes) : Bytes := (digits b).map fun c => c.toNat.toUInt8

@[simp] theorem length_digits (b : Bytes) : (digits b).length = 2 * b.length := by
  induction b with
  | nil => rfl
  | cons x rest ih => simp [digits, ih]; omega

@[simp] theorem length_encode (b : Bytes) : (encode b).length = 2 * b.length := by
  rw [encode, String.length_ofList, length_digits]

end SealedMetadata.Hex
