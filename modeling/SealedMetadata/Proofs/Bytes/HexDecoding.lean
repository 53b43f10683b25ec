import SealedMetadata.Proofs.Text.HexDigits

/-!
Hexadecimal text read as bytes. Digits may be of either case, and blanks may stand between the
bytes. A byte string is read back from its hexadecimal text.
-/

namespace SealedMetadata.Hex

/-- The value of a digit, in either case. -/
def value? (c : Char) : Option UInt8 :=
  if 48 ≤ c.toNat ∧ c.toNat ≤ 57 then some (c.toNat - 48).toUInt8
  else if 97 ≤ c.toNat ∧ c.toNat ≤ 102 then some (c.toNat - 87).toUInt8
  else if 65 ≤ c.toNat ∧ c.toNat ≤ 70 then some (c.toNat - 55).toUInt8
  else none

/-- Whether a character may stand between two bytes: an ASCII blank or line end. -/
def isGap (c : Char) : Bool := (9 ≤ c.toNat && c.toNat ≤ 13) || c = ' '

def decodeChars? : List Char → Option Bytes
  | [] => some []
  | [c] => if isGap c then some [] else none
  | c :: d :: rest =>
    if isGap c then decodeChars? (d :: rest)
    else do
      let high ← value? c
      let low ← value? d
      let bytes ← decodeChars? rest
      return (high <<< 4 ||| low) :: bytes

/-- The bytes of a hexadecimal text, if it is one. -/
def decode? (s : String) : Option Bytes := decodeChars? s.toList

theorem value?_digit (n : UInt8) : n < 16 → value? (digit n) = some n := by
  revert n
  apply forall_byte
  decide +kernel

theorem isGap_of_mem_lowerDigits : ∀ c ∈ lowerDigits, isGap c = false :=
  forall_mem_of_all (by decide)

/-- A byte is put together from its halves. -/
theorem join_halves (b : UInt8) : (b >>> 4) <<< 4 ||| b &&& 15 = b := by
  revert b
  apply forall_byte
  decide +kernel

theorem decodeChars?_digits (b : Bytes) : decodeChars? (digits b) = some b := by
  induction b with
  | nil => rfl
  | cons x rest ih =>
    obtain ⟨hhigh, hlow⟩ := halves_lt x
    -- a byte begins with a digit, which is no gap
    have hgap : ¬ isGap (digit (x >>> 4)) = true := by
      rw [isGap_of_mem_lowerDigits _ (digit_mem_lowerDigits _ hhigh)]
      exact Bool.false_ne_true
    rw [digits, decodeChars?, if_neg hgap, value?_digit _ hhigh, value?_digit _ hlow, ih]
    exact congrArg (fun y => some (y :: rest)) (join_halves x)

theorem decode?_encode (b : Bytes) : decode? (encode b) = some b := by
  rw [decode?, encode, String.toList_ofList, decodeChars?_digits]

end SealedMetadata.Hex
