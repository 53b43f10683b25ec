import Mathlib.Algebra.Group.Nat.Defs
import SealedMetadata.Proofs.Bytes.Base64

/-!
Canonical base64: only symbols of the alphabet, no more padding than fills the last group, and no
bits left over in the last symbol. Encoding writes it.
-/

namespace SealedMetadata.Base64

/-- Whole groups of four characters: symbols of the alphabet, and then at most two padding
characters, for each of which the last symbol ends in two bits of zero. -/
structure Canonical (text : Bytes) : Prop where
  groups : 4 ∣ text.length
  spelling : ∃ symbols pads, text = symbols ++ List.replicate pads pad ∧ pads ≤ 2 ∧
    (∀ c ∈ symbols, c ∈ alphabet) ∧
    ∀ c ∈ symbols.getLast?, ∃ v, value? c = some v ∧ 4 ^ pads ∣ v.toNat

theorem symbol_mem_alphabet (v : UInt8) : v < 64 → symbol v ∈ alphabet := by
  revert v
  apply forall_byte
  decide +kernel

theorem getLast?_group (a b c d : UInt8) {rest : Bytes} (h : rest ≠ []) :
    (a :: b :: c :: d :: rest).getLast? = rest.getLast? := by
  have hsplit : a :: b :: c :: d :: rest = [a, b, c, d] ++ rest := rfl
  rw [hsplit, List.getLast?_append, List.getLast?_eq_some_getLast h, Option.some_or]

/-- The bits that short groups leave over are zero. -/
theorem leftover_bits (a : UInt8) :
    16 ∣ ((a &&& 3) <<< 4).toNat ∧ 4 ∣ ((a &&& 15) <<< 2).toNat := by
  revert a
  apply forall_byte
  decide +kernel

theorem dvd_last_sextet (b : Bytes) :
    ∀ v ∈ (sextets b).getLast?, 4 ^ padCount b.length ∣ v.toNat := by
  fun_induction sextets b with
  | case1 => simp
  | case2 a =>
    intro v hv
    obtain rfl : (a &&& 3) <<< 4 = v := Option.some.inj hv
    exact (leftover_bits a).1
  | case3 a b =>
    intro v hv
    obtain rfl : (b &&& 15) <<< 2 = v := Option.some.inj hv
    exact (leftover_bits b).2
  | case4 a b c rest ih =>
    intro v hv
    have hpads := padCount_add_three rest.length
    rw [List.length_cons, List.length_cons, List.length_cons, hpads]
    by_cases hrest : rest = []
    · subst hrest
      exact Nat.one_dvd _
    · -- behind a whole group the last symbol is that of the rest
      have hne : sextets rest ≠ [] := fun h => hrest (eq_nil_of_sextets_eq_nil h)
      apply ih v
      rwa [getLast?_group _ _ _ _ hne] at hv

theorem canonical_encode (b : Bytes) : Canonical (encode b) := by
  refine ⟨?_, (sextets b).map symbol, padCount b.length, encode_eq_symbols b, ?_, ?_, ?_⟩
  · rw [length_encode]
    exact Nat.dvd_mul_right 4 _
  · rw [padCount]
    omega
  · intro c hc
    obtain ⟨v, hv, rfl⟩ := List.mem_map.mp hc
    exact symbol_mem_alphabet v (sextets_lt b v hv)
  · intro c hc
    rw [List.getLast?_map] at hc
    obtain ⟨v, hv, rfl⟩ := Option.map_eq_some_iff.mp hc
    have hlt := sextets_lt b v (List.mem_of_getLast? hv)
    exact ⟨v, (symbol_spec v hlt).2.2, dvd_last_sextet b v hv⟩

end SealedMetadata.Base64
