import SealedMetadata.Bytes.Base64
import SealedMetadata.Proofs.Bytes.ByteFacts

/-!
Base64 read back. An encoding is a row of symbols, each of a value below sixty-four, and a padding
whose length follows from that of the bytes. Decoding parts the two again and puts the values
together.
-/

namespace SealedMetadata.Base64

/-- The values of the symbols of an encoding. -/
def sextets : Bytes → Bytes
  | [] => []
  | [a] => [a >>> 2, (a &&& 3) <<< 4]
  | [a, b] => [a >>> 2, (a &&& 3) <<< 4 ||| b >>> 4, (b &&& 15) <<< 2]
  | a :: b :: c :: rest =>
    (a >>> 2) :: ((a &&& 3) <<< 4 ||| b >>> 4) :: ((b &&& 15) <<< 2 ||| c >>> 6) :: (c &&& 63) ::
      sextets rest

/-- The number of padding characters after the encoding of `size` bytes. -/
def padCount (size : Nat) : Nat := (3 - size % 3) % 3

theorem padCount_add_three (size : Nat) : padCount (size + 3) = padCount size := by
  simp only [padCount]
  omega

/-- An encoding is its symbols and its padding. -/
theorem encode_eq_symbols (b : Bytes) :
    encode b = (sextets b).map symbol ++ List.replicate (padCount b.length) pad := by
  fun_induction encode b with
  | case1 => rfl
  | case2 a => rfl
  | case3 a b => rfl
  | case4 a b c rest ih =>
    have hpads := padCount_add_three rest.length
    rw [List.length_cons, List.length_cons, List.length_cons, hpads, sextets, List.map_cons,
      List.map_cons, List.map_cons, List.map_cons, ih]
    rfl

theorem symbol_spec (v : UInt8) :
    v < 64 → symbol v ≠ pad ∧ symbol v < 128 ∧ value? (symbol v) = some v := by
  revert v
  apply forall_byte
  decide +kernel

-- The three bytes of a group have too many values to be tried together. So the parts of one byte
-- are tried alone, and the lemmas after this one take a group apart.
/-- The parts that a byte leaves in the symbols of its group, put together again or shifted out. -/
theorem byte_parts (a : UInt8) :
    (a >>> 2) <<< 2 ||| ((a &&& 3) <<< 4) >>> 4 = a ∧ (a >>> 4) >>> 4 = 0 ∧
      ((a &&& 3) <<< 4) <<< 4 = 0 ∧ (a >>> 4) <<< 4 ||| ((a &&& 15) <<< 2) >>> 2 = a ∧
      (a >>> 6) >>> 2 = 0 ∧ ((a &&& 15) <<< 2) <<< 6 = 0 ∧ (a >>> 6) <<< 6 ||| (a &&& 63) = a := by
  revert a
  apply forall_byte
  decide +kernel

theorem first_byte (a b : UInt8) : (a >>> 2) <<< 2 ||| ((a &&& 3) <<< 4 ||| b >>> 4) >>> 4 = a := by
  obtain ⟨ha, -⟩ := byte_parts a
  obtain ⟨-, hb, -⟩ := byte_parts b
  rw [UInt8.shiftRight_or, hb, UInt8.or_zero, ha]

theorem second_byte (a b c : UInt8) :
    ((a &&& 3) <<< 4 ||| b >>> 4) <<< 4 ||| ((b &&& 15) <<< 2 ||| c >>> 6) >>> 2 = b := by
  obtain ⟨-, -, ha, -⟩ := byte_parts a
  obtain ⟨-, -, -, hb, -⟩ := byte_parts b
  obtain ⟨-, -, -, -, hc, -⟩ := byte_parts c
  rw [UInt8.shiftLeft_or, UInt8.shiftRight_or, ha, hc, UInt8.zero_or, UInt8.or_zero, hb]

theorem third_byte (b c : UInt8) : ((b &&& 15) <<< 2 ||| c >>> 6) <<< 6 ||| (c &&& 63) = c := by
  obtain ⟨-, -, -, -, -, hb, -⟩ := byte_parts b
  obtain ⟨-, -, -, -, -, -, hc⟩ := byte_parts c
  rw [UInt8.shiftLeft_or, hb, UInt8.zero_or, hc]

/-- The values give the bytes back. A short last group is one whose missing bytes are zero. -/
theorem ofValues_sextets (b : Bytes) : ofValues (padCount b.length) (sextets b) = some b := by
  fun_induction sextets b with
  | case1 => rfl
  | case2 a =>
    have ha := first_byte a 0
    rw [UInt8.zero_shiftRight, UInt8.or_zero] at ha
    simp [ofValues, padCount, ha]
  | case3 a b =>
    have ha := first_byte a b
    have hb := second_byte a b 0
    rw [UInt8.zero_shiftRight, UInt8.or_zero] at hb
    simp [ofValues, padCount, ha, hb]
  | case4 a b c rest ih =>
    have hpads := padCount_add_three rest.length
    rw [List.length_cons, List.length_cons, List.length_cons, hpads, ofValues, ih, first_byte,
      second_byte, third_byte]
    rfl

theorem or_lt_sixty_four {x y : UInt8} (hx : x < 64) (hy : y < 64) : x ||| y < 64 := by
  rw [UInt8.lt_iff_toNat_lt] at hx hy ⊢
  rw [UInt8.toNat_or]
  exact Nat.or_lt_two_pow (n := 6) hx hy

theorem byte_parts_lt (a : UInt8) :
    a >>> 2 < 64 ∧ (a &&& 3) <<< 4 < 64 ∧ a >>> 4 < 64 ∧ (a &&& 15) <<< 2 < 64 ∧ a >>> 6 < 64 ∧
      a &&& 63 < 64 := by
  revert a
  apply forall_byte
  decide +kernel

theorem sextets_lt (b : Bytes) : ∀ v ∈ sextets b, v < 64 := by
  fun_induction sextets b with
  | case1 => simp
  | case2 a =>
    obtain ⟨ha, ha', -⟩ := byte_parts_lt a
    simp [ha, ha']
  | case3 a b =>
    obtain ⟨ha, ha', -⟩ := byte_parts_lt a
    obtain ⟨-, -, hb, hb', -⟩ := byte_parts_lt b
    simp [ha, hb', or_lt_sixty_four ha' hb]
  | case4 a b c rest ih =>
    obtain ⟨ha, ha', -⟩ := byte_parts_lt a
    obtain ⟨-, -, hb, hb', -⟩ := byte_parts_lt b
    obtain ⟨-, -, -, -, hc, hc'⟩ := byte_parts_lt c
    simpa [ha, or_lt_sixty_four ha' hb, or_lt_sixty_four hb' hc, hc'] using ih

theorem mapM_value?_symbols {values : Bytes} (h : ∀ v ∈ values, v < 64) :
    (values.map symbol).mapM value? = some values := by
  induction values with
  | nil => rfl
  | cons v rest ih =>
    obtain ⟨-, -, hv⟩ := symbol_spec v (h v List.mem_cons_self)
    have hrest := ih fun w hw => h w (List.mem_cons_of_mem v hw)
    rw [List.map_cons, List.mapM_cons, hv, hrest]
    rfl

/-- No symbol is the padding character, so the padding starts where the symbols end. -/
theorem symbols_split {values : Bytes} (h : ∀ v ∈ values, v < 64) (pads : Nat) :
    (values.map symbol ++ List.replicate pads pad).takeWhile (· ≠ pad) = values.map symbol ∧
      (values.map symbol ++ List.replicate pads pad).dropWhile (· ≠ pad) =
        List.replicate pads pad := by
  have hsymbols : ∀ c ∈ values.map symbol, decide (c ≠ pad) = true := by
    intro c hc
    obtain ⟨v, hv, rfl⟩ := List.mem_map.mp hc
    exact decide_eq_true (symbol_spec v (h v hv)).1
  rw [List.takeWhile_append_of_pos hsymbols, List.dropWhile_append_of_pos hsymbols]
  cases pads <;> simp [List.replicate_succ]

theorem eq_nil_of_sextets_eq_nil {b : Bytes} (h : sextets b = []) : b = [] := by
  fun_cases sextets b with
  | case1 => rfl
  | case2 a => cases h
  | case3 a b => cases h
  | case4 a b c rest => cases h

/-- Every byte string is read back from its encoding. -/
theorem decode?_encode (b : Bytes) : decode? (encode b) = some b := by
  have hlt := sextets_lt b
  obtain ⟨hsymbols, hpadding⟩ := symbols_split hlt (padCount b.length)
  have hpads : (List.replicate (padCount b.length) pad).all (· = pad) = true := by
    simp
  -- a padding without symbols is refused, so the empty string must have none
  have hempty : (sextets b).map symbol = [] → List.replicate (padCount b.length) pad = [] := by
    intro h
    rw [eq_nil_of_sextets_eq_nil (List.map_eq_nil_iff.mp h)]
    rfl
  rw [encode_eq_symbols, decode?, hsymbols, hpadding, mapM_value?_symbols hlt,
    List.length_replicate, guard_of ⟨hpads, hempty⟩]
  exact ofValues_sextets b

/-- An encoding is ASCII. -/
theorem encode_lt (b : Bytes) : ∀ c ∈ encode b, c < 128 := by
  intro c hc
  rw [encode_eq_symbols, List.mem_append] at hc
  rcases hc with hc | hc
  · obtain ⟨v, hv, rfl⟩ := List.mem_map.mp hc
    exact (symbol_spec v (sextets_lt b v hv)).2.1
  · rw [List.eq_of_mem_replicate hc]
    decide

theorem length_encode (b : Bytes) : (encode b).length = 4 * ((b.length + 2) / 3) := by
  fun_induction encode b with
  | case1 => rfl
  | case2 a => simp
  | case3 a b => simp
  | case4 a b c rest ih =>
    simp only [List.length_cons]
    omega

/-- Whole groups of three are encoded on their own. -/
theorem encode_append {b : Bytes} (groups : Nat) (h : b.length = 3 * groups) (rest : Bytes) :
    encode (b ++ rest) = encode b ++ encode rest := by
  induction groups generalizing b with
  | zero =>
    rw [List.length_eq_zero_iff.mp h]
    rfl
  | succ groups ih =>
    match b, h with
    | a :: a' :: a'' :: tail, h =>
      have hlength : tail.length = 3 * groups := by
        simp only [List.length_cons] at h
        omega
      have htail := ih hlength
      simp only [List.cons_append, encode, htail]

end SealedMetadata.Base64
