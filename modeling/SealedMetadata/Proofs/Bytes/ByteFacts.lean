import SealedMetadata.Bytes

/-!
Facts on single bytes, on checks and on masks: a statement on all bytes is settled by trying the
256 of them, and a mask comes off where it is put on twice.
-/

namespace SealedMetadata

/-- What holds of the 256 bytes one by one holds of every byte. The kernel can run through
`Fin 256`, while `UInt8` itself has no such list of values. -/
theorem forall_byte {P : UInt8 → Prop} (h : ∀ n : Fin 256, P (UInt8.ofFin n)) (b : UInt8) :
    P b := by
  have hb := h b.toFin
  rwa [UInt8.ofFin_toFin] at hb

theorem xor_and_byte (a b m : UInt8) : (a ^^^ b) &&& m = (a &&& m) ^^^ (b &&& m) := by
  apply UInt8.toBitVec_inj.mp
  apply BitVec.eq_of_getLsbD_eq
  intro i _
  simp [Bool.and_xor_distrib_right]

theorem xor_byte_cancel (a m : UInt8) : a ^^^ m ^^^ m = a := by
  rw [UInt8.xor_assoc, UInt8.xor_self, UInt8.xor_zero]

theorem xor_pair_cancel (a b m : UInt8) : (a ^^^ m) ^^^ (b ^^^ m) = a ^^^ b := by
  rw [UInt8.xor_comm b m, ← UInt8.xor_assoc, xor_byte_cancel]

/-- A check that is passed leaves no trace in an optional result. -/
theorem guard_of {p : Prop} [Decidable p] (h : p) : (guard p : Option Unit) = some () := if_pos h

/-- An optional result is there only if the check was passed. -/
theorem of_guard {p : Prop} [Decidable p] {u : Unit} (h : (guard p : Option Unit) = some u) :
    p := by
  by_cases hp : p
  · exact hp
  · have hnone : (guard p : Option Unit) = none := if_neg hp
    rw [hnone] at h
    cases h

/-- A mask that covers the text comes off where it is put on twice. -/
theorem Bytes.xor_xor_cancel {text mask : Bytes} (h : text.length ≤ mask.length) :
    (text.xor mask).xor mask = text := by
  induction text generalizing mask with
  | nil => rfl
  | cons a text ih =>
    cases mask with
    | nil => simp at h
    | cons m mask =>
      have hlong : text.length ≤ mask.length := by simpa using h
      have hrest := ih hlong
      simp only [Bytes.xor, List.zipWith_cons_cons, List.cons.injEq] at hrest ⊢
      exact ⟨xor_byte_cancel a m, hrest⟩

end SealedMetadata
