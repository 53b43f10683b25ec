import Mathlib.Data.List.TakeWhile
import Mathlib.Data.Nat.Digits.Defs
import SealedMetadata.Text.IntLiteral

/-!
The numerals of base ten as a grammar: blanks, a sign or none, digits of any script with single
underscores between them, and blanks again. A text is read as a number exactly if it is a numeral
of that number.
-/

namespace SealedMetadata.Text

/-- Digits with at most one underscore between any two of them, and the values of the digits. -/
inductive DigitRow : List Char → List Nat → Prop
  | last {c : Char} {d : Nat} (h : decimalValue? c = some d) : DigitRow [c] [d]
  | digit {c : Char} {d : Nat} {row : List Char} {ds : List Nat} (h : decimalValue? c = some d)
      (rest : DigitRow row ds) : DigitRow (c :: row) (d :: ds)
  | underscore {c : Char} {d : Nat} {row : List Char} {ds : List Nat}
      (h : decimalValue? c = some d) (rest : DigitRow row ds) :
      DigitRow (c :: '_' :: row) (d :: ds)

/-- A sign or none, and what it makes of a size. -/
inductive SignFor (size : Nat) : List Char → Int → Prop
  | unsigned : SignFor size [] size
  | plus : SignFor size ['+'] size
  | minus : SignFor size ['-'] (-size)

/-- The numerals of a number. Only so many digits are allowed, zeros in front counted. -/
inductive IsNumeral : List Char → Int → Prop
  | intro {before sign row after : List Char} {ds : List Nat} {n : Int}
      (hbefore : ∀ c ∈ before, isBlank c = true)
      (hsign : SignFor (Nat.ofDigits 10 ds.reverse) sign n)
      (hrow : DigitRow row ds) (hlimit : ds.length ≤ IntLiteral.digitLimit)
      (hafter : ∀ c ∈ after, isBlank c = true) :
      IsNumeral (before ++ (sign ++ (row ++ after))) n

section Characters

variable {c : Char} {d : Nat}

theorem exists_of_decimalValue? (h : decimalValue? c = some d) :
    ∃ z ∈ zeros, c.toNat = z + d ∧ d < 10 := by
  have hlt := decimalValue?_lt h
  obtain ⟨z, hz, rfl⟩ := Option.map_eq_some_iff.mp h
  have hrange := List.find?_some hz
  rw [Bool.and_eq_true, decide_eq_true_eq, decide_eq_true_eq] at hrange
  refine ⟨z, List.mem_of_find?_eq_some hz, ?_, hlt⟩
  omega

/-- No blank is a digit of any script. -/
theorem decimalValue?_of_isBlank (h : isBlank c = true) : decimalValue? c = none := by
  -- the tables are compared, zero by zero
  have happart : ∀ z ∈ zeros, ∀ k < 10, ((9 ≤ z + k && z + k ≤ 13) || z + k = 32 ||
      z + k = 0x85 || z + k = 0xa0 || z + k = 0x1680 || (0x2000 ≤ z + k && z + k ≤ 0x200a) ||
      z + k = 0x2028 || z + k = 0x2029 || z + k = 0x202f || z + k = 0x205f || z + k = 0x3000) =
      false := by decide
  cases hvalue : decimalValue? c with
  | none => rfl
  | some d =>
    obtain ⟨z, hz, hcode, hd⟩ := exists_of_decimalValue? hvalue
    have hblank := happart z hz d hd
    rw [← hcode] at hblank
    rw [isBlank, hblank] at h
    cases h

theorem not_isBlank_of_decimal (h : decimalValue? c = some d) : isBlank c = false := by
  rw [← Bool.not_eq_true]
  intro hblank
  rw [decimalValue?_of_isBlank hblank] at h
  cases h

theorem ne_of_decimal {e : Char} (h : decimalValue? c = some d) (he : decimalValue? e = none) :
    c ≠ e := by
  rintro rfl
  rw [he] at h
  cases h

end Characters

theorem digit?_ten (c : Char) : IntLiteral.digit? 10 c = decimalValue? c := by
  have hten : ¬(10 = 16) := by decide
  rw [IntLiteral.digit?, if_neg fun h => hten h.1, if_neg fun h => hten h.1]

theorem inRow_ten (c : Char) : IntLiteral.inRow 10 c = (c = '_' || isDecimal c) := by
  rw [IntLiteral.inRow, digit?_ten, isDecimal]

theorem inRow_of_decimal {c : Char} {d : Nat} (h : decimalValue? c = some d) :
    IntLiteral.inRow 10 c = true := by
  rw [inRow_ten, isDecimal, h]
  exact Bool.or_true _

theorem inRow_of_isBlank {c : Char} (h : isBlank c = true) : IntLiteral.inRow 10 c = false := by
  have hunderscore : c ≠ '_' := by
    rintro rfl
    exact absurd h (by decide)
  rw [inRow_ten, isDecimal, decimalValue?_of_isBlank h, decide_eq_false hunderscore]
  rfl

theorem values_cons {c : Char} {d : Nat} (h : decimalValue? c = some d) (row : List Char) :
    IntLiteral.values 10 (c :: row) = d :: IntLiteral.values 10 row := by
  have hdigit : IntLiteral.digit? 10 c = some d := (digit?_ten c).trans h
  rw [IntLiteral.values, List.filterMap_cons, hdigit]
  rfl

theorem values_underscore (row : List Char) :
    IntLiteral.values 10 ('_' :: row) = IntLiteral.values 10 row := by
  have hnone : IntLiteral.digit? 10 '_' = none := by decide
  rw [IntLiteral.values, List.filterMap_cons, hnone]
  rfl

/-- The number that digit values spell is the positional one. -/
theorem ofValues_ten (ds : List Nat) : IntLiteral.ofValues 10 ds = Nat.ofDigits 10 ds.reverse := by
  rw [Nat.ofDigits_eq_foldr, List.foldr_reverse, IntLiteral.ofValues]
  congr 1
  funext n d
  exact Nat.add_comm (10 * n) d

namespace DigitRow

variable {row : List Char} {ds : List Nat}

theorem exists_head (h : DigitRow row ds) :
    ∃ c rest d, row = c :: rest ∧ decimalValue? c = some d := by
  cases h with
  | last h => exact ⟨_, _, _, rfl, h⟩
  | digit h _ => exact ⟨_, _, _, rfl, h⟩
  | underscore h _ => exact ⟨_, _, _, rfl, h⟩

theorem inRow (h : DigitRow row ds) : ∀ c ∈ row, IntLiteral.inRow 10 c = true := by
  induction h with
  | last h => exact List.forall_mem_singleton.mpr (inRow_of_decimal h)
  | digit h _ ih => exact List.forall_mem_cons.mpr ⟨inRow_of_decimal h, ih⟩
  | underscore h _ ih =>
    have hunderscore : IntLiteral.inRow 10 '_' = true := by decide
    exact List.forall_mem_cons.mpr
      ⟨inRow_of_decimal h, List.forall_mem_cons.mpr ⟨hunderscore, ih⟩⟩

theorem values_eq (h : DigitRow row ds) : IntLiteral.values 10 row = ds := by
  induction h with
  | last h => rw [values_cons h]; rfl
  | digit h _ ih => rw [values_cons h, ih]
  | underscore h _ ih => rw [values_cons h, values_underscore, ih]

theorem wellSeparated (h : DigitRow row ds) : IntLiteral.wellSeparated row = true := by
  have hdigit {c : Char} {d : Nat} (h : decimalValue? c = some d) : decide (c ≠ '_') = true :=
    decide_eq_true (ne_of_decimal h (by decide))
  induction h with
  | last h => exact hdigit h
  | @digit c d row ds h rest ih =>
    -- a digit comes next, so the row is not read as one with an underscore in the second place
    obtain ⟨next, rest', d', rfl, hnext⟩ := rest.exists_head
    have hstep : IntLiteral.wellSeparated (c :: next :: rest') =
        (decide (c ≠ '_') && IntLiteral.wellSeparated (next :: rest')) := by
      rw [IntLiteral.wellSeparated]
      · rintro ⟨⟩
      · rintro _ ⟨⟩
        exact ne_of_decimal hnext (by decide) rfl
    rw [hstep, ih, hdigit h, Bool.and_self]
  | @underscore c d row ds h rest ih =>
    rw [IntLiteral.wellSeparated, ih, hdigit h, Bool.and_self]

end DigitRow

/-- What the scanner takes for a row of digits is one. -/
theorem digitRow_of_wellSeparated {row : List Char}
    (hin : ∀ c ∈ row, IntLiteral.inRow 10 c = true)
    (h : IntLiteral.wellSeparated row = true) : DigitRow row (IntLiteral.values 10 row) := by
  have hdigit {c : Char} (hc : IntLiteral.inRow 10 c = true) (hne : c ≠ '_') :
      ∃ d, decimalValue? c = some d := by
    rw [inRow_ten, decide_eq_false hne, Bool.false_or, isDecimal, Option.isSome_iff_exists] at hc
    exact hc
  -- by the recursion of the scanner's own test, which takes an underscore with its digit
  induction row using IntLiteral.wellSeparated.induct with
  | case1 => cases h
  | case2 c =>
    have hne : c ≠ '_' := of_decide_eq_true h
    obtain ⟨d, hd⟩ := hdigit (hin c List.mem_cons_self) hne
    rw [values_cons hd]
    exact .last hd
  | case3 c rest ih =>
    rw [IntLiteral.wellSeparated, Bool.and_eq_true, decide_eq_true_eq] at h
    obtain ⟨d, hd⟩ := hdigit (hin c List.mem_cons_self) h.1
    have hrest : ∀ c ∈ rest, IntLiteral.inRow 10 c = true := by
      intro c hc
      exact hin c (List.mem_cons_of_mem _ (List.mem_cons_of_mem _ hc))
    rw [values_cons hd, values_underscore]
    exact .underscore hd (ih hrest h.2)
  | case4 c rest hne hnot ih =>
    rw [IntLiteral.wellSeparated, Bool.and_eq_true, decide_eq_true_eq] at h
    · obtain ⟨d, hd⟩ := hdigit (hin c List.mem_cons_self) h.1
      rw [values_cons hd]
      exact .digit hd (ih (fun c hc => hin c (List.mem_cons_of_mem _ hc)) h.2)
    · exact hne
    · exact hnot

namespace IntLiteral

theorem dropMark_ten (cs : List Char) : dropMark 10 cs = cs := by
  have hten : ¬(10 = 16) := by decide
  rcases cs with _ | ⟨zero, _ | ⟨x, rest⟩⟩
  · rfl
  · rfl
  · unfold dropMark
    exact if_neg fun h => hten h.1

/-- The sign in front of what is no sign is split off. -/
theorem splitSign_append {size : Nat} {sign cs : List Char} {n : Int} (h : SignFor size sign n)
    (hplus : cs.head? ≠ some '+') (hminus : cs.head? ≠ some '-') :
    ∃ negative, splitSign (sign ++ cs) = (negative, cs) ∧
      (if negative then -(size : Int) else size) = n := by
  cases h with
  | plus => exact ⟨false, rfl, rfl⟩
  | minus => exact ⟨true, rfl, rfl⟩
  | unsigned =>
    refine ⟨false, ?_, rfl⟩
    cases cs with
    | nil => rfl
    | cons c rest =>
      rw [List.nil_append, splitSign]
      · rintro _ ⟨⟩
        exact hminus rfl
      · rintro _ ⟨⟩
        exact hplus rfl

/-- Whatever is split off is a sign. -/
theorem exists_sign (cs : List Char) (size : Nat) :
    ∃ sign, cs = sign ++ (splitSign cs).2 ∧
      SignFor size sign (if (splitSign cs).1 then -(size : Int) else size) := by
  unfold splitSign
  split
  next rest => exact ⟨['-'], rfl, .minus⟩
  next rest => exact ⟨['+'], rfl, .plus⟩
  next => exact ⟨[], rfl, .unsigned⟩

/-- A run of characters of one sort ends where a character of another sort comes. -/
theorem run_append {p : Char → Bool} {run rest : List Char} (hrun : ∀ c ∈ run, p c = true)
    (hstop : ∀ c ∈ rest.head?, p c = false) :
    (run ++ rest).takeWhile p = run ∧ (run ++ rest).dropWhile p = rest := by
  rw [List.takeWhile_append_of_pos hrun, List.dropWhile_append_of_pos hrun]
  cases rest with
  | nil => exact ⟨List.append_nil run, rfl⟩
  | cons c rest =>
    have hc : ¬p c = true := by
      rw [Bool.not_eq_true]
      exact hstop c rfl
    rw [List.takeWhile_cons_of_neg hc, List.dropWhile_cons_of_neg hc]
    exact ⟨List.append_nil run, rfl⟩

/-- Every numeral is read as its number. -/
theorem parseChars_of_isNumeral {cs : List Char} {n : Int} (h : IsNumeral cs n) :
    parseChars 10 cs = .ok n := by
  obtain @⟨before, sign, row, after, ds, _, hbefore, hsign, hrow, hlimit, hafter⟩ := h
  obtain ⟨c, rest, d, hhead, hc⟩ := hrow.exists_head
  have hfirst : (row ++ after).head? = some c := by
    rw [hhead]
    rfl
  have hnotSign {e : Char} (he : decimalValue? e = none) : (row ++ after).head? ≠ some e := by
    rw [hfirst]
    exact fun h => ne_of_decimal hc he (Option.some.inj h)
  -- the blanks end at the sign, or at the first digit where there is none
  have hstart : (before ++ (sign ++ (row ++ after))).dropWhile isBlank =
      sign ++ (row ++ after) := by
    refine (run_append hbefore fun e he => ?_).2
    cases hsign with
    | unsigned =>
      rw [List.nil_append, hfirst] at he
      rw [← Option.some.inj he]
      exact not_isBlank_of_decimal hc
    | plus => cases he; decide
    | minus => cases he; decide
  -- and the row ends at the first blank behind it
  have hstop : ∀ e ∈ after.head?, inRow 10 e = false := by
    intro e he
    exact inRow_of_isBlank (hafter e (List.mem_of_mem_head? he))
  obtain ⟨htake, hdrop⟩ := run_append hrow.inRow hstop
  obtain ⟨negative, hsplit, hn⟩ :=
    splitSign_append hsign (hnotSign (by decide)) (hnotSign (by decide))
  -- so all three tests are passed: separators, number of digits, and what is left over
  have hshort : ¬(10 = 10 ∧ digitLimit < ds.length) := fun h => Nat.not_lt.mpr hlimit h.2
  have hblank : after.all isBlank = true := List.all_eq_true.mpr hafter
  unfold parseChars
  dsimp only
  rw [hstart, hsplit]
  dsimp only
  rw [dropMark_ten, htake, hdrop, hrow.values_eq, hrow.wellSeparated, hblank, ofValues_ten,
    Bool.not_true, if_neg Bool.false_ne_true, if_neg hshort, if_neg Bool.false_ne_true, hn]

/-- Only numerals are read. -/
theorem isNumeral_of_parseChars {cs : List Char} {n : Int} (h : parseChars 10 cs = .ok n) :
    IsNumeral cs n := by
  simp only [parseChars, dropMark_ten] at h
  split at h
  · cases h
  next hseparated =>
  split at h
  · cases h
  next hlimit =>
  split at h
  · cases h
  next hblank =>
  -- what has been split off is put together again in the order of a numeral
  obtain ⟨sign, hcut, hsign⟩ := exists_sign (cs.dropWhile isBlank)
    (ofValues 10 (values 10 ((splitSign (cs.dropWhile isBlank)).2.takeWhile (inRow 10))))
  rw [Except.ok.inj h, ofValues_ten] at hsign
  have hrow := digitRow_of_wellSeparated (fun c hc => List.mem_takeWhile_imp hc)
    (by simpa using hseparated)
  have hparts : cs = cs.takeWhile isBlank ++ (sign ++
      ((splitSign (cs.dropWhile isBlank)).2.takeWhile (inRow 10) ++
        (splitSign (cs.dropWhile isBlank)).2.dropWhile (inRow 10))) := by
    rw [List.takeWhile_append_dropWhile, ← hcut, List.takeWhile_append_dropWhile]
  rw [hparts]
  refine .intro (fun c hc => List.mem_takeWhile_imp hc) hsign hrow ?_ ?_
  · exact Nat.not_lt.mp fun hlt => hlimit ⟨trivial, hlt⟩
  · rw [Bool.not_eq_true', Bool.not_eq_false, List.all_eq_true] at hblank
    exact hblank

/-- A text is read as a number exactly if it is a numeral of it. -/
theorem parse_eq_ok_iff {s : String} {n : Int} : parse 10 s = .ok n ↔ IsNumeral s.toList n :=
  ⟨isNumeral_of_parseChars, parseChars_of_isNumeral⟩

end IntLiteral

/-- Each script has its digits, and each numeral one value. -/
example : IntLiteral.parse 10 "\u00a0-٠_2\n" = .ok (-2) := by rfl

end SealedMetadata.Text
