import SealedMetadata.Proofs.Cli.Running

/-!
From the arguments of a command line to its command. A command's secret is absent where none of
the arguments after its name reads as its option, and only there.
-/

namespace SealedMetadata.Cli

theorem exists_of_bind_ok {α β : Type} {x : Except Stop α} {f : α → Except Stop β} {b : β}
    (h : x >>= f = .ok b) : ∃ a, x = .ok a ∧ f a = .ok b := by
  cases x with
  | error stop => cases h
  | ok a => exact ⟨a, rfl, h⟩

/-- The option that an argument reads as. -/
def Token.optionName? : Token → Option String
  | option spec _ => some spec.name
  | operand _ | separator | shortHelp _ | unknown => none

namespace Reading

variable {separators : Separators} {wantsOperand : Bool} {r r' : Reading}

theorem names_of_addOption {spec : OptionSpec} {value : Option RawText}
    (h : r.addOption spec value = .ok r') :
    r'.options.map Prod.fst = r.options.map Prod.fst ++ [spec.name] := by
  unfold addOption at h
  split at h
  · cases h
    exact List.map_append
  · cases h

/-- The options that are read are those of the arguments, in their order. -/
theorem names_go {ts : List Token} (h : go separators wantsOperand r ts = .ok r') :
    r'.options.map Prod.fst = r.options.map Prod.fst ++ ts.filterMap Token.optionName? := by
  -- each option that is accepted is added behind those before it
  have hadded {r₁ : Reading} {spec : OptionSpec} {value : Option RawText} {ts : List Token}
      (h : (r₁.addOption spec value >>= fun r₂ => go separators wantsOperand r₂ ts) = .ok r')
      (ih : ∀ r₂ : Reading, go separators wantsOperand r₂ ts = .ok r' →
        r'.options.map Prod.fst = r₂.options.map Prod.fst ++ ts.filterMap Token.optionName?) :
      r'.options.map Prod.fst =
        r₁.options.map Prod.fst ++ spec.name :: ts.filterMap Token.optionName? := by
    obtain ⟨r₂, hr₂, hrest⟩ := exists_of_bind_ok h
    rw [ih r₂ hrest, names_of_addOption hr₂, List.append_assoc, List.singleton_append]
  fun_induction go separators wantsOperand r ts with
  | case1 r =>
    cases h
    exact (List.append_nil _).symm
  | case2 r ts ih => exact ih h
  | case3 r tail ts => cases h
  | case4 r s hwants ts ih => exact ih h
  | case5 r s hwants ts hnext ih => exact ih h
  | case6 r s ts hfull ih => exact ih h
  | case7 r s ts hwants ih => exact ih h
  | case8 r s ts hfull ih => exact ih h
  | case9 r ts hnext ih => exact ih h
  | case10 r spec ts value hswitch => cases h
  | case11 r spec ts hswitch hhelp => cases h
  | case12 r spec ts hswitch hother ih => exact hadded h ih
  | case13 r spec ts s hvalued ih => exact hadded h ih
  | case14 r spec hvalued s ts ih =>
    -- the argument that is the value is no option
    have hnames := hadded h ih
    exact hnames
  | case15 r spec hvalued ts hnext => cases h

theorem names_ofArguments {specs : List OptionSpec} {args : List RawText}
    (h : ofArguments separators specs wantsOperand args = .ok r) :
    ∃ ts, tokens (help :: specs) args = .ok ts ∧
      r.options.map Prod.fst = ts.filterMap fun t => t.1.optionName? := by
  obtain ⟨ts, hts, hread⟩ := exists_of_bind_ok h
  obtain ⟨r₁, hgo, hchecked⟩ := exists_of_bind_ok hread
  have hr₁ : r₁ = r := by
    split at hchecked
    · cases hchecked
    · exact Except.ok.inj hchecked
  have hnames := names_go hgo
  rw [List.filterMap_map, hr₁] at hnames
  exact ⟨ts, hts, hnames⟩

theorem last?_eq_none_iff (r : Reading) (name : String) :
    r.last? name = none ↔ name ∉ r.options.map Prod.fst := by
  rw [last?, List.lookup_eq_none_iff, List.mem_map]
  constructor
  · rintro h ⟨option, hoption, rfl⟩
    have hother := h option (List.mem_reverse.mpr hoption)
    exact absurd rfl (bne_iff_ne.mp hother)
  · intro h option hoption
    apply bne_iff_ne.mpr
    intro hname
    exact h ⟨option, List.mem_reverse.mp hoption, hname.symm⟩

end Reading

namespace Command

/-- The options of a command. -/
def specs : Command → List OptionSpec
  | encrypt _ _ _ => [valued "--key", numbered "--version"]
  | decrypt _ _ => [valued "--key"]
  | loginHash _ _ _ _ =>
    [numbered "--auth-version", valued "--salt", valued "--password", switch "--show-master-key"]
  | linkHash _ => [valued "--password"]

/-- The option for a command's secret. -/
def secretOption : Command → String
  | encrypt _ _ _ | decrypt _ _ => "--key"
  | loginHash _ _ _ _ | linkHash _ => "--password"

/-- One of the arguments after a command's name reads as an option. -/
def HasOption (c : Command) (name : String) (args : List RawText) : Prop :=
  ∃ ts, tokens (help :: c.specs) args = .ok ts ∧ ∃ t ∈ ts, t.1.optionName? = some name

/-- One of them reads as the option for the command's secret. -/
def IsGivenIn (c : Command) (args : List RawText) : Prop := c.HasOption c.secretOption args

/-- The version that credentials are asked for is a whole number that shows as itself, or none. -/
def ShowsItsNumber : Command → Prop
  | loginHash authVersion _ _ _ => ∀ n, authVersion.number? = some n → authVersion = .ofInt n
  | encrypt _ _ _ | decrypt _ _ | linkHash _ => True

theorem eq_ofInt_of_versionOf {value : Option RawText} {n : Int}
    (h : (versionOf value).number? = some n) : versionOf value = .ofInt n := by
  rw [versionOf] at h ⊢
  cases hvalue : value.bind numberIn? with
  | none =>
    rw [hvalue] at h
    cases h
  | some m =>
    rw [hvalue] at h
    cases h
    rfl

theorem eq_ofInt_of_last {value : Option (Option RawText)} {n : Int}
    (h : ((value.map versionOf).getD (.ofInt 2)).number? = some n) :
    (value.map versionOf).getD (.ofInt 2) = .ofInt n := by
  cases value with
  | none =>
    cases h
    rfl
  | some value => exact eq_ofInt_of_versionOf h

theorem last?_eq_none_iff {separators : Separators} {c : Command} {wantsOperand : Bool}
    {args : List RawText} {r : Reading}
    (h : Reading.ofArguments separators c.specs wantsOperand args = .ok r) (name : String) :
    r.last? name = none ↔ ¬ c.HasOption name args := by
  obtain ⟨ts, hts, hnames⟩ := Reading.names_ofArguments h
  rw [Reading.last?_eq_none_iff, hnames, List.mem_filterMap]
  apply not_congr
  constructor
  · intro hmem
    exact ⟨ts, hts, hmem⟩
  · rintro ⟨ts', hts', hmem⟩
    rw [hts] at hts'
    cases hts'
    exact hmem

theorem flag?_eq_none_iff {separators : Separators} {c : Command} {wantsOperand : Bool}
    {args : List RawText} {r : Reading}
    (h : Reading.ofArguments separators c.specs wantsOperand args = .ok r)
    (hflag : c.flag? = r.text? c.secretOption) : c.flag? = none ↔ ¬ c.IsGivenIn args := by
  rw [hflag, Reading.text?, Option.map_eq_none_iff, last?_eq_none_iff h]
  rfl

/-- A command's options are there exactly if its arguments give them. -/
structure ReadsFrom (c : Command) (args : List RawText) : Prop where
  secret : c.flag? = none ↔ ¬ c.IsGivenIn args
  version : ∀ data key version, c = encrypt data key version →
    (version = none ↔ ¬ c.HasOption "--version" args)
  number : c.ShowsItsNumber

/-- The command that arguments name. -/
theorem ofArguments_spec {separators : Separators} {name : RawText} {args : List RawText}
    {c : Command} (h : ofArguments separators name args = .ok c) :
    name = .ofString c.name ∧ c.ReadsFrom args := by
  unfold ofArguments at h
  split at h
  next heq =>
    obtain ⟨r, hr, hc⟩ := exists_of_bind_ok h
    cases hc
    have hlast := last?_eq_none_iff (c := .encrypt (r.operand?.getD []) (r.text? "--key")
      ((r.last? "--version").map versionOf)) hr "--version"
    refine ⟨RawText.text?_eq_some_iff.mp heq, ⟨flag?_eq_none_iff hr rfl, ?_, trivial⟩⟩
    intro data key version hc
    cases hc
    exact Option.map_eq_none_iff.trans hlast
  next heq =>
    obtain ⟨r, hr, hc⟩ := exists_of_bind_ok h
    cases hc
    refine ⟨RawText.text?_eq_some_iff.mp heq, ⟨flag?_eq_none_iff hr rfl, ?_, trivial⟩⟩
    intro data key version hother
    cases hother
  next heq =>
    obtain ⟨r, hr, hc⟩ := exists_of_bind_ok h
    cases hc
    refine ⟨RawText.text?_eq_some_iff.mp heq, ⟨flag?_eq_none_iff hr rfl, ?_, ?_⟩⟩
    · intro data key version hother
      cases hother
    · exact fun n => eq_ofInt_of_last
  next heq =>
    obtain ⟨r, hr, hc⟩ := exists_of_bind_ok h
    cases hc
    refine ⟨RawText.text?_eq_some_iff.mp heq, ⟨flag?_eq_none_iff hr rfl, ?_, trivial⟩⟩
    intro data key version hother
    cases hother
  next => cases h

end Command

theorem eq_of_unmatched {arg s : RawText} (h : unmatched arg = .operand s) : s = arg := by
  unfold unmatched at h
  split at h
  · cases h
    rfl
  · cases h

theorem eq_of_classifyLong {specs : List OptionSpec} {arg s : RawText}
    (h : classifyLong specs arg = .ok (.operand s)) : s = arg := by
  unfold classifyLong at h
  dsimp only at h
  split at h
  · cases h
  · cases h
  · split at h
    · exact eq_of_unmatched (Except.ok.inj h)
    · cases h
    · cases h

/-- An operand is the argument itself. -/
theorem eq_of_classify {specs : List OptionSpec} {arg s : RawText}
    (h : classify specs arg = .ok (.operand s)) : s = arg := by
  unfold classify at h
  split at h
  · exact eq_of_classifyLong h
  · cases h
  · exact eq_of_unmatched (Except.ok.inj h)
  · cases h
    rfl

/-- Each argument has its token, and an operand is the argument itself. -/
theorem tokens_spec {specs : List OptionSpec} {args : List RawText} {ts : List (Token × RawText)}
    (h : tokens specs args = .ok ts) :
    ts.map Prod.snd = args ∧ ∀ t ∈ ts, ∀ s, t.1 = .operand s → s = t.2 := by
  induction args generalizing ts with
  | nil =>
    cases h
    exact ⟨rfl, List.forall_mem_nil _⟩
  | cons arg args ih =>
    rw [tokens] at h
    split at h
    next hseparator =>
      -- behind the separator each argument is an operand
      cases h
      refine ⟨?_, ?_⟩
      · rw [List.map_cons, List.map_map]
        exact congrArg (arg :: ·) (List.map_id args)
      · intro t ht s hs
        rcases List.mem_cons.mp ht with rfl | hrest
        · cases hs
        · obtain ⟨a, -, rfl⟩ := List.mem_map.mp hrest
          exact (Token.operand.inj hs).symm
    next =>
      obtain ⟨t, ht, hrest⟩ := exists_of_bind_ok h
      obtain ⟨us, hus, hts⟩ := exists_of_bind_ok hrest
      cases hts
      obtain ⟨htexts, hoperands⟩ := ih hus
      refine ⟨congrArg (arg :: ·) htexts, ?_⟩
      intro u hu s hs
      rcases List.mem_cons.mp hu with rfl | hmem
      · dsimp only at hs
        rw [hs] at ht
        exact eq_of_classify ht
      · exact hoperands u hmem s hs

namespace Invocation

theorem exists_of_find {separators : Separators} {verbose surplus : Bool}
    {ts : List (Token × RawText)} {i : Invocation}
    (h : find separators verbose surplus ts = .ok i) :
    ∃ before name text after, ts = before ++ (.operand name, text) :: after ∧
      Command.ofArguments separators name (after.map Prod.snd) = .ok i.command := by
  have hlater {t : Token × RawText} {ts : List (Token × RawText)}
      (h : ∃ before name text after, ts = before ++ (.operand name, text) :: after ∧
        Command.ofArguments separators name (after.map Prod.snd) = .ok i.command) :
      ∃ before name text after, t :: ts = before ++ (.operand name, text) :: after ∧
        Command.ofArguments separators name (after.map Prod.snd) = .ok i.command := by
    obtain ⟨before, name, text, after, rfl, hcommand⟩ := h
    exact ⟨t :: before, name, text, after, rfl, hcommand⟩
  -- what comes before the name is passed over or ends the search
  induction ts generalizing verbose surplus with
  | nil => cases h
  | cons t ts ih =>
    obtain ⟨token, text⟩ := t
    cases token with
    | operand name =>
      obtain ⟨command, hcommand, hi⟩ := exists_of_bind_ok h
      split at hi
      · cases hi
      · cases hi
        exact ⟨[], name, text, ts, rfl, hcommand⟩
    | separator => cases h
    | unknown => exact hlater (ih h)
    | shortHelp tail => cases h
    | option spec attached =>
      cases attached with
      | some value => cases h
      | none =>
        rw [find] at h
        split at h
        · cases h
        · exact hlater (ih h)

/-- A command line that is carried out has the name of its command, and that command's arguments
after it. -/
theorem ofArguments_spec {separators : Separators} {args : List RawText} {i : Invocation}
    (h : ofArguments separators args = .ok i) :
    ∃ before after, args = before ++ .ofString i.command.name :: after ∧
      i.command.ReadsFrom after := by
  obtain ⟨ts, hts, hfind⟩ := exists_of_bind_ok h
  obtain ⟨htexts, hoperands⟩ := tokens_spec hts
  obtain ⟨before, name, text, after, rfl, hcommand⟩ := exists_of_find hfind
  obtain ⟨hname, hreads⟩ := Command.ofArguments_spec hcommand
  have htext : name = text :=
    hoperands (.operand name, text) (List.mem_append_right _ List.mem_cons_self) name rfl
  refine ⟨before.map Prod.snd, after.map Prod.snd, ?_, hreads⟩
  rw [← htexts, List.map_append, List.map_cons, ← hname, htext]

end Invocation

end SealedMetadata.Cli
