import SealedMetadata.Proofs.Cli.CommandLines

/-!
Command lines for given commands. Behind an equals sign a key is read as it is, and behind `--`
so is a text, whatever is in it.
-/

namespace SealedMetadata.Cli

/-- An option with its value attached. -/
def assigned (name : String) (value : RawText) : RawText :=
  RawText.ofString name ++ .char '=' :: value

/-- A command line that encrypts a text, with the key among its arguments or without it. -/
def encryptLine (data : RawText) (key : Option RawText) (v : Version) : List RawText :=
  .ofString "encrypt" :: (key.toList.map (assigned "--key") ++
    [assigned "--version" (.ofString (toString v.number)), separator, data])

/-- A command line that decrypts a field. -/
def decryptLine (field : RawText) (key : Option RawText) : List RawText :=
  .ofString "decrypt" :: (key.toList.map (assigned "--key") ++ [separator, field])

theorem cutAtEquals_append {name : RawText} (hname : .char '=' ∉ name) (value : RawText) :
    cutAtEquals (name ++ .char '=' :: value) = (name, some value) := by
  have hall : ∀ p ∈ name, decide (p ≠ .char '=') = true := by
    intro p hp
    apply decide_eq_true
    rintro rfl
    exact hname hp
  rw [cutAtEquals, List.dropWhile_append_of_pos hall, List.takeWhile_append_of_pos hall]
  simp

/-- No option has an argument with an equals sign as its name. -/
theorem named?_assigned {specs : List OptionSpec} (h : ∀ s ∈ specs, .char '=' ∉ s.text)
    (name : String) (value : RawText) : named? specs (assigned name value) = none := by
  rw [named?, List.find?_eq_none]
  intro s hs hequal
  apply h s hs
  rw [beq_iff_eq.mp hequal, assigned]
  simp

/-- The name of an option: it begins with two minus signs and has no equals sign. -/
def IsOptionName (name : String) : Prop :=
  (RawText.ofString name).take 2 = separator ∧ .char '=' ∉ RawText.ofString name

instance (name : String) : Decidable (IsOptionName name) :=
  inferInstanceAs (Decidable (_ ∧ _))

section Classify

variable {specs : List OptionSpec} {name : String} (hspecs : ∀ s ∈ specs, .char '=' ∉ s.text)
  (hname : IsOptionName name)

include hspecs hname

theorem classify_assigned_eq (value : RawText) : classify specs (assigned name value) =
    match named? specs (.ofString name) with
    | some s => .ok (.option s (some value))
    | none =>
      match specs.filter fun s => (RawText.ofString name).isPrefixOf s.text with
      | [] => .ok (unmatched (assigned name value))
      | [s] => .ok (.option s (some value))
      | _ => .error .fault := by
  obtain ⟨hminus, hfree⟩ := hname
  have hcut : cutAtEquals (assigned name value) = (.ofString name, some value) :=
    cutAtEquals_append hfree value
  have hlong : classify specs (assigned name value) =
      classifyLong specs (assigned name value) := by
    have htext : assigned name value =
        .char '-' :: .char '-' :: ((RawText.ofString name).drop 2 ++ .char '=' :: value) := by
      rw [assigned, ← List.take_append_drop 2 (RawText.ofString name), hminus]
      rfl
    rw [htext, classify]
  rw [hlong, classifyLong, named?_assigned hspecs, hcut]
  cases named? specs (.ofString name) <;> rfl

theorem classify_assigned {spec : OptionSpec} (h : named? specs (.ofString name) = some spec)
    (value : RawText) : classify specs (assigned name value) = .ok (.option spec (some value)) := by
  rw [classify_assigned_eq hspecs hname, h]

theorem classify_assigned_unmatched (h : named? specs (.ofString name) = none)
    (hnone : (specs.filter fun s => (RawText.ofString name).isPrefixOf s.text) = [])
    (value : RawText) :
    classify specs (assigned name value) = .ok (unmatched (assigned name value)) := by
  rw [classify_assigned_eq hspecs hname, h, hnone]

end Classify

theorem assigned_ne_separator {name : String} (h : 2 ≤ (RawText.ofString name).length)
    (value : RawText) : assigned name value ≠ separator := by
  intro hequal
  have hlength : (assigned name value).length = 2 := congrArg List.length hequal
  rw [assigned, List.length_append, List.length_cons] at hlength
  omega

theorem tokens_cons {specs : List OptionSpec} {arg : RawText} {args : List RawText} {t : Token}
    {ts : List (Token × RawText)} (harg : arg ≠ separator) (ht : classify specs arg = .ok t)
    (hts : tokens specs args = .ok ts) : tokens specs (arg :: args) = .ok ((t, arg) :: ts) := by
  rw [tokens, if_neg harg, ht, hts]
  rfl

theorem tokens_separator {specs : List OptionSpec} (args : List RawText) :
    tokens specs (separator :: args) =
      .ok ((.separator, separator) :: args.map fun a => (.operand a, a)) :=
  if_pos rfl

/-- The tokens of a key among the arguments, and of those after it. -/
theorem tokens_keyed {specs : List OptionSpec} {t : RawText → Token} {args : List RawText}
    {ts : List (Token × RawText)} (h : ∀ key, classify specs (assigned "--key" key) = .ok (t key))
    (hts : tokens specs args = .ok ts) (key : Option RawText) :
    tokens specs (key.toList.map (assigned "--key") ++ args) =
      .ok (key.toList.map (fun k => (t k, assigned "--key" k)) ++ ts) := by
  cases key with
  | none => exact hts
  | some k => exact tokens_cons (assigned_ne_separator (by decide) k) (h k) hts

/-- A key can be attached, unless it is a separator that is dropped. -/
def Attachable (separators : Separators) (key : Option RawText) : Prop :=
  separators = .dropped → key ≠ some separator

theorem attachedValue_eq {separators : Separators} {key : RawText}
    (h : Attachable separators (some key)) : attachedValue separators key = some key := by
  cases separators with
  | dropped => exact if_neg fun hseparator => h rfl (congrArg some hseparator)
  | kept => rfl

namespace Reading

/-- The reading of a key's arguments, if it has any. -/
def keyed (key : Option RawText) : List (String × Option RawText) :=
  key.toList.map fun k => ("--key", some k)

theorem go_keyed {separators : Separators} {key : Option RawText}
    (hkey : Attachable separators key) (wantsOperand : Bool) (ts : List Token) :
    go separators wantsOperand empty
        (key.toList.map (fun k => .option (valued "--key") (some k)) ++ ts) =
      go separators wantsOperand ⟨keyed key, none, false⟩ ts := by
  cases key with
  | none => rfl
  | some k =>
    change ((empty.addOption (valued "--key") (attachedValue separators k)) >>=
      fun r => go separators _ r ts) = _
    rw [attachedValue_eq hkey]
    rfl

/-- A reading that wants nothing more. -/
theorem ofArguments_of_go {separators : Separators} {specs : List OptionSpec}
    {args : List RawText} {ts : List (Token × RawText)} {options : List (String × Option RawText)}
    {operand : RawText} (hts : tokens (help :: specs) args = .ok ts)
    (hgo : go separators true empty (ts.map Prod.fst) = .ok ⟨options, some operand, false⟩) :
    ofArguments separators specs true args = .ok ⟨options, some operand, false⟩ := by
  rw [ofArguments, hts]
  change (go separators true empty (ts.map Prod.fst) >>= _) = _
  rw [hgo]
  rfl

end Reading

namespace Invocation

variable {separators : Separators}

/-- A command's name, and then its arguments. -/
theorem ofArguments_cons {name : RawText} {args : List RawText} {ts : List (Token × RawText)}
    {c : Command} (hname : classify specs name = .ok (.operand name)) (hplain : name ≠ separator)
    (hts : tokens specs args = .ok ts) (hc : Command.ofArguments separators name args = .ok c) :
    ofArguments separators (name :: args) = .ok ⟨false, c⟩ := by
  have htexts : ts.map Prod.snd = args := (tokens_spec hts).1
  rw [ofArguments, tokens_cons hplain hname hts]
  change find separators false false ((.operand name, name) :: ts) = _
  rw [find, htexts, hc]
  rfl

theorem classify_specs_assigned {name : String} (h : name = "--key" ∨ name = "--version")
    (value : RawText) :
    classify specs (assigned name value) = .ok (unmatched (assigned name value)) := by
  rcases h with rfl | rfl
  · exact classify_assigned_unmatched (by decide) (by decide) rfl rfl value
  · exact classify_assigned_unmatched (by decide) (by decide) rfl rfl value

/-- A command that takes a key reads all of it behind its equals sign. -/
theorem classify_key {specs : List OptionSpec} (hfree : ∀ s ∈ specs, .char '=' ∉ s.text)
    (hspec : named? specs (.ofString "--key") = some (valued "--key")) (key : RawText) :
    classify specs (assigned "--key" key) = .ok (.option (valued "--key") (some key)) :=
  classify_assigned hfree (by decide) hspec key

/-- Each text can be encrypted with each key that can be attached, in each version. -/
theorem ofArguments_encryptLine (data : RawText) {key : Option RawText}
    (hkey : Attachable separators key) (v : Version) :
    ofArguments separators (encryptLine data key v) =
      .ok ⟨false, .encrypt data key (some v.request)⟩ := by
  let number : RawText := .ofString (toString v.number)
  let version := assigned "--version" number
  have hfree : ∀ s ∈ [help, valued "--key", Command.numbered "--version"], .char '=' ∉ s.text := by
    decide
  have hversion : classify [help, valued "--key", Command.numbered "--version"] version =
      .ok (.option (Command.numbered "--version") (some number)) :=
    classify_assigned hfree (by decide) rfl _
  have hplain : version ≠ separator := assigned_ne_separator (by decide) _
  -- the outer reading only looks for the name of the command, the inner one reads its arguments
  have houter := tokens_keyed (classify_specs_assigned (Or.inl rfl))
    (tokens_cons hplain (classify_specs_assigned (Or.inr rfl) _) (tokens_separator [data])) key
  have hinner := tokens_keyed (classify_key hfree rfl)
    (tokens_cons hplain hversion (tokens_separator [data])) key
  have hgo := Reading.go_keyed hkey true
    [.option (Command.numbered "--version") (some number), .separator, .operand data]
  apply ofArguments_cons rfl (by decide) houter
  have hread : Reading.ofArguments separators [valued "--key", Command.numbered "--version"] true
      (key.toList.map (assigned "--key") ++ [version, separator, data]) =
        .ok ⟨Reading.keyed key ++ [("--version", some number)], some data, false⟩ := by
    apply Reading.ofArguments_of_go hinner
    rw [List.map_append, List.map_map]
    refine hgo.trans ?_
    cases separators <;> cases v <;> rfl
  rw [Command.ofArguments, RawText.text?_ofString, hread]
  cases v <;> cases key <;> rfl

theorem ofArguments_decryptLine (field : RawText) {key : Option RawText}
    (hkey : Attachable separators key) :
    ofArguments separators (decryptLine field key) = .ok ⟨false, .decrypt field key⟩ := by
  have hfree : ∀ s ∈ [help, valued "--key"], .char '=' ∉ s.text := by
    decide
  have houter := tokens_keyed (classify_specs_assigned (Or.inl rfl)) (tokens_separator [field]) key
  have hinner := tokens_keyed (classify_key hfree rfl) (tokens_separator [field]) key
  have hgo := Reading.go_keyed hkey true [.separator, .operand field]
  apply ofArguments_cons rfl (by decide) houter
  have hread : Reading.ofArguments separators [valued "--key"] true
      (key.toList.map (assigned "--key") ++ [separator, field]) =
        .ok ⟨Reading.keyed key, some field, false⟩ := by
    apply Reading.ofArguments_of_go hinner
    rw [List.map_append, List.map_map]
    exact hgo
  rw [Command.ofArguments, RawText.text?_ofString, hread]
  cases key <;> rfl

end Invocation

end SealedMetadata.Cli
