import SealedMetadata.Proofs.Text.HexDigits

/-!
The quoted form of a text as a grammar. The quotes are double ones where the text has a single
quote and no double one, and single ones otherwise. Between them every character stands as itself
or as an escape: what would end the text or begin an escape behind a backslash, layout by its
letter, and what does not show by the digits of its code. A text has one such form, and it is known
from it.
-/

namespace SealedMetadata.Text

/-- Digits in base sixteen, the first one the largest, and the number that they spell. -/
inductive HexNumeral : Nat → List Char → Prop
  | empty : HexNumeral 0 []
  | snoc {n k : Nat} {ds : List Char} {c : Char} (front : HexNumeral n ds)
      (h : Hex.lowerDigits[k]? = some c) : HexNumeral (16 * n + k) (ds ++ [c])

/-- The letters for the characters of layout. -/
def layoutLetters : List (Char × Char) := [('\n', 'n'), ('\r', 'r'), ('\t', 't')]

/-- The mark of an escape by code and the number of digits behind it, the fewest that will do. -/
inductive CodeMark (code : Nat) : Char → Nat → Prop
  | two (h : code < 0x100) : CodeMark code 'x' 2
  | four (h : 0x100 ≤ code) (hlt : code < 0x10000) : CodeMark code 'u' 4
  | eight (h : 0x10000 ≤ code) : CodeMark code 'U' 8

/-- How a character stands between quotes. -/
inductive StandsAs (quote : Char) : Char → List Char → Prop
  | plain {c : Char} (hprints : isPrintable c = true) (hquote : c ≠ quote)
      (hbackslash : c ≠ '\\') : StandsAs quote c [c]
  | behind {c : Char} (h : c = quote ∨ c = '\\') : StandsAs quote c ['\\', c]
  | layout {c letter : Char} (h : (c, letter) ∈ layoutLetters) : StandsAs quote c ['\\', letter]
  | code {c mark : Char} {width : Nat} {ds : List Char} (hhidden : isPrintable c = false)
      (hlayout : c ∉ layoutLetters.map Prod.fst) (hmark : CodeMark c.toNat mark width)
      (hlength : ds.length = width) (hcode : HexNumeral c.toNat ds) :
      StandsAs quote c ('\\' :: mark :: ds)

/-- How characters stand between quotes, one after another. -/
inductive AllStandAs (quote : Char) : List Char → List Char → Prop
  | nil : AllStandAs quote [] []
  | cons {c : Char} {cs form forms : List Char} (head : StandsAs quote c form)
      (rest : AllStandAs quote cs forms) : AllStandAs quote (c :: cs) (form ++ forms)

/-- The quoted form of a text. -/
inductive IsQuotation (s : String) : String → Prop
  | single {forms : List Char} (hquotes : '\'' ∈ s.toList → '"' ∈ s.toList)
      (hforms : AllStandAs '\'' s.toList forms) :
      IsQuotation s (String.ofList ('\'' :: forms ++ ['\'']))
  | double {forms : List Char} (hsingle : '\'' ∈ s.toList) (hdouble : '"' ∉ s.toList)
      (hforms : AllStandAs '"' s.toList forms) :
      IsQuotation s (String.ofList ('"' :: forms ++ ['"']))

section Numerals

variable {n k : Nat} {ds : List Char} {c : Char}

theorem lowerDigits_getElem?_iff :
    Hex.lowerDigits[k]? = some c ↔ k < 16 ∧ c = Hex.digit k.toUInt8 := by
  have hdigits : ∀ k < 16, Hex.lowerDigits[k]? = some (Hex.digit k.toUInt8) := by decide
  constructor
  · intro h
    have hk : k < 16 := (List.getElem?_eq_some_iff.mp h).1
    rw [hdigits k hk] at h
    exact ⟨hk, (Option.some.inj h).symm⟩
  · rintro ⟨hk, rfl⟩
    exact hdigits k hk

theorem HexNumeral.eq_hexDigits (h : HexNumeral n ds) : ds = hexDigits ds.length n := by
  induction h with
  | empty => rfl
  | @snoc n k ds c front h ih =>
    obtain ⟨hk, rfl⟩ := lowerDigits_getElem?_iff.mp h
    have hfront : (16 * n + k) / 16 = n := by omega
    have hlast : (16 * n + k) % 16 = k := by omega
    rw [List.length_append, List.length_singleton, hexDigits, hfront, hlast, ← ih]

theorem hexNumeral_hexDigits {width : Nat} (h : n < 16 ^ width) :
    HexNumeral n (hexDigits width n) := by
  induction width generalizing n with
  | zero =>
    rw [Nat.pow_zero, Nat.lt_one_iff] at h
    rw [h]
    exact .empty
  | succ width ih =>
    have hfront : n / 16 < 16 ^ width := by
      rw [Nat.pow_succ] at h
      exact Nat.div_lt_of_lt_mul (Nat.mul_comm _ _ ▸ h)
    have hlast := lowerDigits_getElem?_iff.mpr ⟨Nat.mod_lt n (by decide : 0 < 16), rfl⟩
    have hnumeral := (ih hfront).snoc hlast
    rwa [Nat.div_add_mod] at hnumeral

theorem HexNumeral.ofValues_eq (h : HexNumeral n ds) :
    IntLiteral.ofValues 16 (IntLiteral.values 16 ds) = n := by
  induction h with
  | empty => rfl
  | @snoc n k ds c front h ih =>
    obtain ⟨hk, rfl⟩ := lowerDigits_getElem?_iff.mp h
    have hlast : IntLiteral.values 16 [Hex.digit k.toUInt8] = [k] := by
      rw [IntLiteral.values, List.filterMap_cons, IntLiteral.digit?_digit k hk]
      rfl
    rw [IntLiteral.values] at ih hlast
    rw [IntLiteral.values, List.filterMap_append, hlast, IntLiteral.ofValues, List.foldl_append]
    rw [IntLiteral.ofValues] at ih
    rw [ih]
    rfl

end Numerals

section Characters

variable {quote c : Char} {form : List Char}

theorem not_mem_layout_iff :
    c ∉ layoutLetters.map Prod.fst ↔ c ≠ '\n' ∧ c ≠ '\r' ∧ c ≠ '\t' := by
  simp [layoutLetters]

theorem isPrintable_of_mem_layout :
    ∀ c ∈ layoutLetters.map Prod.fst, isPrintable c = false :=
  forall_mem_of_all (by decide)

/-- Every character has a form. -/
theorem standsAs_escape (quote c : Char) : StandsAs quote c (escape quote c) := by
  unfold escape
  split
  next h => exact .behind h
  next hmarked =>
  rw [not_or] at hmarked
  split
  next h => exact .layout (h ▸ by decide)
  next hnewline =>
  split
  next h => exact .layout (h ▸ by decide)
  next hreturn =>
  split
  next h => exact .layout (h ▸ by decide)
  next htab =>
  split
  next h => exact .plain h hmarked.1 hmarked.2
  next hhidden =>
  rw [Bool.not_eq_true] at hhidden
  have hlayout := not_mem_layout_iff.mpr ⟨hnewline, hreturn, htab⟩
  -- what does not show takes the shortest escape that its code fits in
  split
  next h => exact .code hhidden hlayout (.two h) (length_hexDigits 2 _) (hexNumeral_hexDigits h)
  next hlow =>
  rw [Nat.not_lt] at hlow
  split
  next h =>
    exact .code hhidden hlayout (.four hlow h) (length_hexDigits 4 _) (hexNumeral_hexDigits h)
  next hhigh =>
  rw [Nat.not_lt] at hhigh
  have hcode : c.toNat < 16 ^ 8 := c.val.toNat_lt
  exact .code hhidden hlayout (.eight hhigh) (length_hexDigits 8 _) (hexNumeral_hexDigits hcode)

theorem escape_of_unmarked (hmarked : ¬(c = quote ∨ c = '\\'))
    (hlayout : c ∉ layoutLetters.map Prod.fst) :
    escape quote c =
      if isPrintable c then [c]
      else if c.toNat < 0x100 then '\\' :: 'x' :: hexDigits 2 c.toNat
      else if c.toNat < 0x10000 then '\\' :: 'u' :: hexDigits 4 c.toNat
      else '\\' :: 'U' :: hexDigits 8 c.toNat := by
  obtain ⟨hnewline, hreturn, htab⟩ := not_mem_layout_iff.mp hlayout
  rw [escape, if_neg hmarked, if_neg hnewline, if_neg hreturn, if_neg htab]

/-- It has no other, since the quote and the backslash show and no layout does. -/
theorem StandsAs.eq_escape (hquote : isPrintable quote = true) (h : StandsAs quote c form) :
    form = escape quote c := by
  have hmarked (h : c = quote ∨ c = '\\') : isPrintable c = true := by
    rcases h with rfl | rfl
    · exact hquote
    · decide
  have hunmarked (h : isPrintable c = false) : ¬(c = quote ∨ c = '\\') := by
    intro hc
    rw [hmarked hc] at h
    cases h
  cases h with
  | plain hprints hne hne' =>
    have hlayout : c ∉ layoutLetters.map Prod.fst := by
      intro hmem
      rw [isPrintable_of_mem_layout c hmem] at hprints
      cases hprints
    rw [escape_of_unmarked (not_or.mpr ⟨hne, hne'⟩) hlayout, if_pos hprints]
  | behind h => rw [escape, if_pos h]
  | layout h =>
    have hne := hunmarked (isPrintable_of_mem_layout c (List.mem_map_of_mem h))
    rw [escape, if_neg hne]
    simp only [layoutLetters, List.mem_cons, Prod.mk.injEq, List.not_mem_nil, or_false] at h
    rcases h with ⟨rfl, rfl⟩ | ⟨rfl, rfl⟩ | ⟨rfl, rfl⟩ <;> rfl
  | code hhidden hlayout hmark hlength hcode =>
    rw [escape_of_unmarked (hunmarked hhidden) hlayout, hhidden, if_neg Bool.false_ne_true,
      hcode.eq_hexDigits, hlength]
    cases hmark with
    | two h => rw [if_pos h]
    | four h hlt => rw [if_neg (Nat.not_lt.mpr h), if_pos hlt]
    | eight h =>
      have hlow : ¬c.toNat < 0x100 := by omega
      rw [if_neg hlow, if_neg (Nat.not_lt.mpr h)]

theorem allStandAs_iff (hquote : isPrintable quote = true) {cs forms : List Char} :
    AllStandAs quote cs forms ↔ forms = cs.flatMap (escape quote) := by
  constructor
  · intro h
    induction h with
    | nil => rfl
    | cons head _ ih => rw [List.flatMap_cons, ← ih, ← head.eq_escape hquote]
  · rintro rfl
    induction cs with
    | nil => exact .nil
    | cons c cs ih => exact .cons (standsAs_escape quote c) ih

end Characters

section Reading

variable {quote c c' mark letter : Char} {form form' rest rest' : List Char}

/-- What follows the backslash of an escape is of one of three sorts: a mark of a code, -/
theorem CodeMark.mem {code width : Nat} (h : CodeMark code mark width) :
    mark ∈ ['x', 'u', 'U'] := by
  cases h <;> decide

/-- a letter of layout, -/
theorem letter_mem (h : (c, letter) ∈ layoutLetters) : letter ∈ ['n', 'r', 't'] := by
  have hletters : ∀ l ∈ layoutLetters, l.2 ∈ ['n', 'r', 't'] := forall_mem_of_all (by decide)
  exact hletters _ h

/-- or the character itself. -/
theorem marked_mem (hquote : quote = '\'' ∨ quote = '"') (h : c = quote ∨ c = '\\') :
    c ∈ ['\'', '"', '\\'] := by
  rcases h with rfl | rfl
  · rcases hquote with rfl | rfl <;> decide
  · decide

theorem CodeMark.width_unique {code code' width width' : Nat} (h : CodeMark code mark width)
    (h' : CodeMark code' mark width') : width = width' := by
  cases h <;> cases h' <;> rfl

theorem layout_unique (h : (c, letter) ∈ layoutLetters) (h' : (c', letter) ∈ layoutLetters) :
    c = c' := by
  have hfind : ∀ l ∈ layoutLetters, layoutLetters.find? (fun k => k.2 = l.2) = some l :=
    forall_mem_of_all (by decide)
  have hc : layoutLetters.find? (fun k => k.2 = letter) = some (c, letter) := hfind _ h
  have hc' : layoutLetters.find? (fun k => k.2 = letter) = some (c', letter) := hfind _ h'
  rw [hc] at hc'
  exact (Prod.mk.inj (Option.some.inj hc')).1

/-- No form begins another one, so a character is known from where its form begins. -/
theorem StandsAs.unique_of_append (hquote : quote = '\'' ∨ quote = '"')
    (h : StandsAs quote c form) (h' : StandsAs quote c' form')
    (heq : form ++ rest = form' ++ rest') : c = c' ∧ rest = rest' := by
  have hmarked : ∀ d ∈ ['\'', '"', '\\'], d ∉ ['n', 'r', 't'] ∧ d ∉ ['x', 'u', 'U'] :=
    forall_mem_of_all (by decide)
  have hlayout : ∀ d ∈ ['n', 'r', 't'], d ∉ ['x', 'u', 'U'] := forall_mem_of_all (by decide)
  have hsecond {m m' : Char} {x x' : List Char} (h : '\\' :: m :: x = '\\' :: m' :: x') :
      m = m' ∧ x = x' := List.cons.inj (List.cons.inj h).2
  cases h with
  | plain _ _ hbackslash =>
    cases h' with
    | plain => exact List.cons.inj heq
    | behind | layout | code => exact absurd (List.cons.inj heq).1 hbackslash
  | behind h =>
    have hmem := marked_mem hquote h
    cases h' with
    | plain _ _ hbackslash => exact absurd (List.cons.inj heq).1.symm hbackslash
    | behind => exact hsecond heq
    | layout h' => exact absurd ((hsecond heq).1 ▸ letter_mem h') (hmarked c hmem).1
    | code _ _ hmark => exact absurd ((hsecond heq).1 ▸ hmark.mem) (hmarked c hmem).2
  | @layout letter h =>
    have hmem := letter_mem h
    cases h' with
    | plain _ _ hbackslash => exact absurd (List.cons.inj heq).1.symm hbackslash
    | behind h' => exact absurd ((hsecond heq).1 ▸ hmem) (hmarked c' (marked_mem hquote h')).1
    | layout h' =>
      obtain ⟨rfl, hrest⟩ := hsecond heq
      exact ⟨layout_unique h h', hrest⟩
    | code _ _ hmark => exact absurd ((hsecond heq).1 ▸ hmark.mem) (hlayout letter hmem)
  | code _ _ hmark hlength hcode =>
    have hmem := hmark.mem
    cases h' with
    | plain _ _ hbackslash => exact absurd (List.cons.inj heq).1.symm hbackslash
    | behind h' => exact absurd ((hsecond heq).1 ▸ hmem) (hmarked c' (marked_mem hquote h')).2
    | @layout letter h' => exact absurd ((hsecond heq).1 ▸ hmem) (hlayout letter (letter_mem h'))
    | code _ _ hmark' hlength' hcode' =>
      -- the same mark has the same number of digits behind it, and they spell one code
      obtain ⟨rfl, htail⟩ := hsecond heq
      have hwidth := hmark.width_unique hmark'
      obtain ⟨rfl, hrest⟩ :=
        List.append_inj htail ((hlength.trans hwidth).trans hlength'.symm)
      exact ⟨Char.toNat_inj.mp (hcode.ofValues_eq.symm.trans hcode'.ofValues_eq), hrest⟩

theorem StandsAs.ne_nil (h : StandsAs quote c form) : form ≠ [] := by
  cases h <;> exact List.cons_ne_nil _ _

theorem AllStandAs.eq_nil {forms : List Char} {cs : List Char} (h : AllStandAs quote cs forms)
    (hforms : forms = []) : cs = [] := by
  cases h with
  | nil => rfl
  | cons head _ => exact absurd (List.append_eq_nil_iff.mp hforms).1 head.ne_nil

theorem AllStandAs.unique (hquote : quote = '\'' ∨ quote = '"') {cs cs' forms : List Char}
    (h : AllStandAs quote cs forms) (h' : AllStandAs quote cs' forms) : cs = cs' := by
  induction h generalizing cs' with
  | nil => exact (h'.eq_nil rfl).symm
  | @cons c cs form forms head rest ih =>
    generalize hsame : form ++ forms = forms' at h'
    cases h' with
    | nil => exact absurd (List.append_eq_nil_iff.mp hsame).1 head.ne_nil
    | cons head' rest' =>
      obtain ⟨rfl, rfl⟩ := head.unique_of_append hquote head' hsame
      rw [ih rest']

end Reading

section Texts

variable {s t : String}

theorem quoted_of_quote {q : Char}
    (h : quoteFor (s.toList.contains '\'') (s.toList.contains '"') = q) :
    quoted s = String.ofList (q :: s.toList.flatMap (escape q) ++ [q]) := by
  subst h
  rfl

theorem quoted_of_single (h : '\'' ∈ s.toList → '"' ∈ s.toList) :
    quoted s = String.ofList ('\'' :: s.toList.flatMap (escape '\'') ++ ['\'']) := by
  refine quoted_of_quote (if_neg fun hboth => ?_)
  rw [Bool.and_eq_true, Bool.not_eq_true', List.contains_iff_mem] at hboth
  rw [List.contains_iff_mem.mpr (h hboth.1)] at hboth
  cases hboth.2

theorem quoted_of_double (hsingle : '\'' ∈ s.toList) (hdouble : '"' ∉ s.toList) :
    quoted s = String.ofList ('"' :: s.toList.flatMap (escape '"') ++ ['"']) := by
  refine quoted_of_quote (if_pos ?_)
  rw [Bool.and_eq_true, Bool.not_eq_true', List.contains_iff_mem, ← Bool.not_eq_true,
    List.contains_iff_mem]
  exact ⟨hsingle, hdouble⟩

/-- A text has one quoted form. -/
theorem isQuotation_iff : IsQuotation s t ↔ t = quoted s := by
  have hshown : isPrintable '\'' = true ∧ isPrintable '"' = true := by decide
  constructor
  · intro h
    cases h with
    | single hquotes hforms =>
      rw [quoted_of_single hquotes, (allStandAs_iff hshown.1).mp hforms]
    | double hsingle hdouble hforms =>
      rw [quoted_of_double hsingle hdouble, (allStandAs_iff hshown.2).mp hforms]
  · rintro rfl
    by_cases h : '\'' ∈ s.toList ∧ '"' ∉ s.toList
    · rw [quoted_of_double h.1 h.2]
      exact .double h.1 h.2 ((allStandAs_iff hshown.2).mpr rfl)
    · have hquotes : '\'' ∈ s.toList → '"' ∈ s.toList := by
        intro hsingle
        exact Classical.byContradiction fun hdouble => h ⟨hsingle, hdouble⟩
      rw [quoted_of_single hquotes]
      exact .single hquotes ((allStandAs_iff hshown.1).mpr rfl)

theorem IsQuotation.exists_forms (h : IsQuotation s t) :
    ∃ quote forms, (quote = '\'' ∨ quote = '"') ∧ AllStandAs quote s.toList forms ∧
      t.toList = quote :: (forms ++ [quote]) := by
  cases h with
  | single _ hforms => exact ⟨'\'', _, Or.inl rfl, hforms, String.toList_ofList⟩
  | double _ _ hforms => exact ⟨'"', _, Or.inr rfl, hforms, String.toList_ofList⟩

/-- It is the quoted form of no other text. -/
theorem IsQuotation.text_unique {s' : String} (h : IsQuotation s t) (h' : IsQuotation s' t) :
    s = s' := by
  obtain ⟨quote, forms, hquote, hforms, ht⟩ := h.exists_forms
  obtain ⟨quote', forms', -, hforms', ht'⟩ := h'.exists_forms
  obtain ⟨rfl, hinner⟩ := List.cons.inj (ht.symm.trans ht')
  obtain rfl := List.append_cancel_right hinner
  exact String.toList_inj.mp (hforms.unique hquote hforms')

end Texts

/-- The quotes are those that the text leaves free. -/
example : quoted "it\x27s\n" = "\"it\x27s\\n\"" := by decide +kernel

end SealedMetadata.Text
