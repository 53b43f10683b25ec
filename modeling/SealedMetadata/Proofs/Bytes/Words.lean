import SealedMetadata.Bytes

/-!
Words of 64 bits and the bytes that spell them. A word is read back from its bytes, words are read
one after the other from the left, and the bytes of a sum of words are the sums of their bytes.
-/

namespace SealedMetadata.Bytes

/-- A byte of a word that is cut out and put back in its place has the word's bits there and no
others. -/
theorem getLsbD_byteInPlace (w k : UInt64) (hk : k.toNat < 64) {i : Nat} (hi : i < 64) :
    ((w >>> k).toUInt8.toUInt64 <<< k).toBitVec.getLsbD i =
      (decide (k.toNat ≤ i ∧ i < k.toNat + 8) && w.toBitVec.getLsbD i) := by
  have hshift : (k.toBitVec % 64).toNat = k.toNat := Nat.mod_eq_of_lt hk
  simp only [UInt64.toBitVec_shiftLeft, UInt8.toBitVec_toUInt64, UInt64.toBitVec_toUInt8,
    UInt64.toBitVec_shiftRight, BitVec.shiftLeft_eq', BitVec.ushiftRight_eq', hshift]
  by_cases hle : k.toNat ≤ i
  · have hplace : k.toNat + (i - k.toNat) = i := by omega
    have hbyte : i - k.toNat < 8 ↔ i < k.toNat + 8 := by omega
    simp [hi, hle, hplace, hbyte]
  · simp [hle]

/-- A word is what its bytes spell. -/
theorem word64BE_bytes (w : UInt64) :
    word64BE (w >>> 56).toUInt8 (w >>> 48).toUInt8 (w >>> 40).toUInt8 (w >>> 32).toUInt8
      (w >>> 24).toUInt8 (w >>> 16).toUInt8 (w >>> 8).toUInt8 w.toUInt8 = w := by
  apply UInt64.toBitVec_inj.mp
  apply BitVec.eq_of_getLsbD_eq
  intro i hi
  have hlast := getLsbD_byteInPlace w 0 (by decide) hi
  rw [UInt64.shiftLeft_zero, UInt64.shiftRight_zero] at hlast
  simp only [word64BE, UInt64.toBitVec_or, BitVec.getLsbD_or, hlast]
  rw [getLsbD_byteInPlace w 56 (by decide) hi, getLsbD_byteInPlace w 48 (by decide) hi,
    getLsbD_byteInPlace w 40 (by decide) hi, getLsbD_byteInPlace w 32 (by decide) hi,
    getLsbD_byteInPlace w 24 (by decide) hi, getLsbD_byteInPlace w 16 (by decide) hi,
    getLsbD_byteInPlace w 8 (by decide) hi]
  cases w.toBitVec.getLsbD i with
  | false => simp
  | true =>
    -- a bit that is set lies in one of the eight bytes
    simp
    omega

theorem words64BE_flatMap (ws : List UInt64) : words64BE (ws.flatMap ofWord64BE) = ws := by
  induction ws with
  | nil => rfl
  | cons w ws ih =>
    have hhead : words64BE (ofWord64BE w ++ ws.flatMap ofWord64BE) =
        w :: words64BE (ws.flatMap ofWord64BE) := congrArg (· :: _) (word64BE_bytes w)
    rw [List.flatMap_cons, hhead, ih]

theorem words64BE_append {count : Nat} {b : Bytes} (hb : b.length = 8 * count) (c : Bytes) :
    words64BE (b ++ c) = words64BE b ++ words64BE c := by
  induction count generalizing b with
  | zero =>
    obtain rfl := List.length_eq_zero_iff.mp hb
    rfl
  | succ count ih =>
    match b, hb with
    | b₀ :: b₁ :: b₂ :: b₃ :: b₄ :: b₅ :: b₆ :: b₇ :: rest, hb =>
      simp only [List.length_cons] at hb
      have hrest : rest.length = 8 * count := by omega
      exact congrArg (_ :: ·) (ih hrest)

theorem length_words64BE {count : Nat} {b : Bytes} (hb : b.length = 8 * count) :
    (words64BE b).length = count := by
  induction count generalizing b with
  | zero =>
    obtain rfl := List.length_eq_zero_iff.mp hb
    rfl
  | succ count ih =>
    match b, hb with
    | b₀ :: b₁ :: b₂ :: b₃ :: b₄ :: b₅ :: b₆ :: b₇ :: rest, hb =>
      simp only [List.length_cons] at hb
      have hrest : rest.length = 8 * count := by omega
      exact congrArg Nat.succ (ih hrest)

theorem ofWord64BE_xor (v w : UInt64) :
    ofWord64BE (v ^^^ w) = (ofWord64BE v).xor (ofWord64BE w) := by
  simp only [ofWord64BE, UInt64.shiftRight_xor, UInt64.toUInt8_xor]
  rfl

/-- The bytes of words added one by one are the bytes added one by one. -/
theorem flatMap_ofWord64BE_xor {vs ws : List UInt64} (h : vs.length = ws.length) :
    (List.zipWith (· ^^^ ·) vs ws).flatMap ofWord64BE =
      xor (vs.flatMap ofWord64BE) (ws.flatMap ofWord64BE) := by
  induction vs generalizing ws with
  | nil => rfl
  | cons v vs ih =>
    cases ws with
    | nil => cases h
    | cons w ws =>
      have hlength : vs.length = ws.length := Nat.succ.inj h
      have hrest := ih hlength
      have hword : (ofWord64BE v).length = (ofWord64BE w).length := rfl
      rw [List.zipWith_cons_cons, List.flatMap_cons, List.flatMap_cons, List.flatMap_cons, hrest,
        ofWord64BE_xor]
      exact (List.zipWith_append hword).symm

/-- A mask of zeros changes nothing. -/
theorem xor_zeros {b : Bytes} {count : Nat} (h : b.length = count) :
    xor (List.replicate count 0) b = b := by
  induction b generalizing count with
  | nil =>
    obtain rfl := h
    rfl
  | cons x b ih =>
    obtain rfl := h
    have hrest := ih rfl
    simp only [xor, List.length_cons, List.replicate_succ, List.zipWith_cons_cons,
      UInt8.zero_xor] at hrest ⊢
    rw [hrest]

end SealedMetadata.Bytes
