import SealedMetadata.Proofs.Text.Capitals
import SealedMetadata.Settings

/-!
What an environment says about the settings, as a grammar of its two variables. Settings are read
exactly where both variables follow it, and then they are what the variables say; otherwise they
are refused for the first variable that does not.
-/

namespace SealedMetadata

/-- The names of the levels, second names included. -/
def Log.levels : List (String × Int) :=
  [("CRITICAL", 50), ("FATAL", 50), ("ERROR", 40), ("WARN", 30), ("WARNING", 30), ("INFO", 20),
    ("DEBUG", 10), ("NOTSET", 0)]

theorem Log.levelNamed?_eq_some_iff {name : String} {level : Int} :
    levelNamed? name = some level ↔ (name, level) ∈ levels := by
  constructor
  · intro h
    -- the second names are tried before the table of first names
    unfold levelNamed? at h
    split at h
    · rw [← Option.some.inj h]
      decide
    · rw [← Option.some.inj h]
      decide
    · have hlisted : ∀ l ∈ levelNames, (l.2, l.1) ∈ levels := by decide
      obtain ⟨l, hl, rfl⟩ := Option.map_eq_some_iff.mp h
      have hname := List.find?_some hl
      rw [decide_eq_true_eq] at hname
      rw [← hname]
      exact hlisted l (List.mem_of_find?_eq_some hl)
  · intro h
    have hfound : ∀ l ∈ levels, levelNamed? l.1 = some l.2 := by decide
    exact hfound (name, level) h

-- in a larger context the instance for all characters would be taken for this
theorem Log.forall_mem_names {p : Char → Prop} [DecidablePred p]
    (h : (levels.all fun l => l.1.toList.all fun c => decide (p c)) = true) :
    ∀ l ∈ levels, ∀ c ∈ l.1.toList, p c := by
  intro l hl c hc
  have hname := List.all_eq_true.mp h l hl
  exact of_decide_eq_true (List.all_eq_true.mp hname c hc)

/-- A text is the name of a level in upper case. -/
def Log.Names (upper : Char → List Char) (raw : String) (level : Int) : Prop :=
  (String.ofList (raw.toList.flatMap upper), level) ∈ levels

/-- A text is a numeral of a version's number. -/
def Version.Names (raw : String) (v : Version) : Prop := Text.IsNumeral raw.toList v.number

namespace Settings

/-- What the value of a variable gives: the default where it is unset or empty, and else what it
names. -/
inductive Gives {α : Type} (names : String → α → Prop) (default : α) : Option String → α → Prop
  | unset : Gives names default none default
  | empty : Gives names default (some "") default
  | named {raw : String} {a : α} (h : names raw a) : Gives names default (some raw) a

/-- A setting in an environment, read by `parse`. -/
def setting {α : Type} (parse : String → Except Failure α) (default : α) (env : Environment)
    (name : String) : Except Failure α :=
  match value? env name with
  | some raw => parse raw
  | none => .ok default

theorem ofEnvironment_eq (env : Environment) : ofEnvironment env = do
    let version ← setting parseVersion .gcm env versionVariable
    let level ← setting parseLevel 20 env levelVariable
    return ⟨version, level⟩ := by
  unfold ofEnvironment setting
  -- all four ways to set the variables or not
  cases value? env versionVariable with
  | none => cases value? env levelVariable <;> rfl
  | some raw => cases value? env levelVariable <;> rfl

/-- A parser reads exactly what has a name, which no empty text has, and refuses the rest in one
way. -/
structure Reads {α : Type} (parse : String → Except Failure α) (names : String → α → Prop)
    (refusal : String → Failure) : Prop where
  ok_iff : ∀ raw a, parse raw = .ok a ↔ names raw a
  not_empty : ∀ a, ¬ names "" a
  refuses : ∀ raw e, parse raw = .error e → e = refusal raw

section Setting

variable {α : Type} {parse : String → Except Failure α} {names : String → α → Prop}
  {refusal : String → Failure} {env : Environment} {name : String}

theorem setting_of_unset (default : α) (h : env.lookup name = none ∨ env.lookup name = some "") :
    setting parse default env name = .ok default := by
  have hvalue : value? env name = none := by
    rcases h with h | h
    · rw [value?, h]
      rfl
    · rw [value?, h]
      rfl
  rw [setting, hvalue]

theorem setting_of_set (default : α) {raw : String} (h : env.lookup name = some raw)
    (hfull : raw ≠ "") : setting parse default env name = parse raw := by
  have hkept : (!raw.isEmpty) = true := by
    rw [Bool.not_eq_true', ← Bool.not_eq_true, String.isEmpty_iff]
    exact hfull
  have hvalue : value? env name = some raw := by
    rw [value?, h]
    exact if_pos hkept
  rw [setting, hvalue]

/-- A setting is read exactly as what its variable gives. -/
theorem Reads.setting_eq_ok_iff (h : Reads parse names refusal) (default a : α) :
    setting parse default env name = .ok a ↔ Gives names default (env.lookup name) a := by
  constructor
  · intro hread
    cases hvalue : env.lookup name with
    | none =>
      rw [setting_of_unset default (Or.inl hvalue)] at hread
      rw [← Except.ok.inj hread]
      exact .unset
    | some raw =>
      by_cases hfull : raw = ""
      · rw [hfull] at hvalue ⊢
        rw [setting_of_unset default (Or.inr hvalue)] at hread
        rw [← Except.ok.inj hread]
        exact .empty
      · rw [setting_of_set default hvalue hfull] at hread
        exact .named ((h.ok_iff raw a).mp hread)
  · intro hgives
    generalize hvalue : env.lookup name = value at hgives
    cases hgives with
    | unset => exact setting_of_unset default (Or.inl hvalue)
    | empty => exact setting_of_unset default (Or.inr hvalue)
    | @named raw a hnames =>
      have hfull : raw ≠ "" := by
        rintro rfl
        exact h.not_empty a hnames
      rw [setting_of_set default hvalue hfull]
      exact (h.ok_iff raw a).mpr hnames

/-- A setting is refused exactly if its variable gives none, and then for its value. -/
theorem Reads.setting_eq_error_iff (h : Reads parse names refusal) (default : α) (e : Failure) :
    setting parse default env name = .error e ↔
      ∃ raw, env.lookup name = some raw ∧ (¬ ∃ a, Gives names default (env.lookup name) a) ∧
        e = refusal raw := by
  constructor
  · intro hread
    have hnone : ¬ ∃ a, Gives names default (env.lookup name) a := by
      rintro ⟨a, ha⟩
      rw [(h.setting_eq_ok_iff default a).mpr ha] at hread
      cases hread
    cases hvalue : env.lookup name with
    | none =>
      rw [hvalue] at hnone
      exact absurd ⟨default, .unset⟩ hnone
    | some raw =>
      rw [hvalue] at hnone
      have hfull : raw ≠ "" := by
        rintro rfl
        exact hnone ⟨default, .empty⟩
      rw [setting_of_set default hvalue hfull] at hread
      exact ⟨raw, rfl, hnone, h.refuses raw e hread⟩
  · rintro ⟨raw, hvalue, hnone, rfl⟩
    -- what is not read is refused, and the refusal can only be that of the parser
    cases hread : setting parse default env name with
    | ok a => exact absurd ⟨a, (h.setting_eq_ok_iff default a).mp hread⟩ hnone
    | error e =>
      have hfull : raw ≠ "" := by
        rintro rfl
        rw [setting_of_unset default (Or.inr hvalue)] at hread
        cases hread
      rw [setting_of_set default hvalue hfull] at hread
      rw [h.refuses raw e hread]

end Setting

theorem parseVersion_eq_ok_iff (raw : String) (v : Version) :
    parseVersion raw = .ok v ↔ Version.Names raw v := by
  rw [Version.Names, ← Text.IntLiteral.parse_eq_ok_iff]
  unfold parseVersion
  split
  next h =>
    rw [h]
    cases v <;> decide
  next h =>
    rw [h]
    cases v <;> decide
  next hone htwo =>
    refine ⟨fun h => (by cases h), fun h => ?_⟩
    cases v with
    | cbc => exact absurd h hone
    | gcm => exact absurd h htwo

theorem reads_parseVersion :
    Reads parseVersion Version.Names fun raw => .invalidValue (.versionSetting raw) where
  ok_iff := parseVersion_eq_ok_iff
  not_empty v h := by
    rw [← parseVersion_eq_ok_iff] at h
    cases v <;> exact absurd h (by decide)
  refuses raw e h := by
    unfold parseVersion at h
    split at h <;> cases h
    rfl

section UpperCasing

variable {upper : Char → List Char} (hupper : Text.IsUpperCasing upper)
include hupper

/-- Names of levels are ASCII, so it is enough to look at capitals. -/
theorem names_iff_capitals (raw : String) (level : Int) :
    Log.Names upper raw level ↔ (Text.capitals raw, level) ∈ Log.levels := by
  have hascii : ∀ l ∈ Log.levels, ∀ c ∈ l.1.toList, c.toNat < 128 :=
    Log.forall_mem_names (by decide)
  have hsame {name : String} (hname : Text.IsAscii name.toList) :
      String.ofList (raw.toList.flatMap upper) = name ↔ Text.capitals raw = name := by
    rw [Text.capitals, ← String.toList_inj, ← String.toList_inj, String.toList_ofList,
      String.toList_ofList]
    exact Text.flatMap_upper_eq_iff hupper hname
  constructor
  · intro h
    have hname := (hsame (hascii _ h)).mp rfl
    rwa [hname]
  · intro h
    have hname := (hsame (hascii _ h)).mpr rfl
    rwa [Log.Names, hname]

theorem parseLevel_eq_ok_iff (raw : String) (level : Int) :
    parseLevel raw = .ok level ↔ Log.Names upper raw level := by
  rw [names_iff_capitals hupper, ← Log.levelNamed?_eq_some_iff, parseLevel]
  cases Log.levelNamed? (Text.capitals raw) with
  | none => exact ⟨fun h => (by cases h), fun h => (by cases h)⟩
  | some l => exact ⟨fun h => by rw [Except.ok.inj h], fun h => by rw [Option.some.inj h]⟩

theorem reads_parseLevel :
    Reads parseLevel (Log.Names upper) fun raw => .invalidValue (.levelSetting raw) where
  ok_iff := parseLevel_eq_ok_iff hupper
  not_empty level h := by
    have hnot : ∀ l ∈ Log.levels, l.1 ≠ "" := by decide
    exact hnot _ h rfl
  refuses raw e h := by
    unfold parseLevel at h
    split at h <;> cases h
    rfl

/-- No number names a level. -/
theorem not_names_of_isNumeral {raw : String} {n : Int} (h : Text.IsNumeral raw.toList n)
    (level : Int) : ¬ Log.Names upper raw level := by
  -- a digit is its own capital, and there is none in a name
  have hletters : ∀ l ∈ Log.levels, ∀ c ∈ l.1.toList, Text.decimalValue? c = none :=
    Log.forall_mem_names (by decide)
  intro hnames
  obtain ⟨c, hc, d, hd⟩ := h.exists_digit
  have hcapital : c ∈ (Text.capitals raw).toList := by
    rw [Text.capitals, String.toList_ofList]
    exact Text.mem_flatMap_capital hc hd
  have hnone := hletters _ ((names_iff_capitals hupper raw level).mp hnames) c hcapital
  rw [hd] at hnone
  cases hnone

end UpperCasing

/-- The version that an environment gives. -/
def GivesVersion (env : Environment) (v : Version) : Prop :=
  Gives Version.Names .gcm (env.lookup versionVariable) v

/-- The level that an environment gives. -/
def GivesLevel (upper : Char → List Char) (env : Environment) (level : Int) : Prop :=
  Gives (Log.Names upper) 20 (env.lookup levelVariable) level

/-- An environment is refused: for its version, or else for its level. -/
inductive RefusedFor (upper : Char → List Char) (env : Environment) : Failure → Prop
  | version {raw : String} (hraw : env.lookup versionVariable = some raw)
      (hnone : ¬ ∃ v, GivesVersion env v) :
      RefusedFor upper env (.invalidValue (.versionSetting raw))
  | level {raw : String} (hversion : ∃ v, GivesVersion env v)
      (hraw : env.lookup levelVariable = some raw) (hnone : ¬ ∃ level, GivesLevel upper env level) :
      RefusedFor upper env (.invalidValue (.levelSetting raw))

section Environment

variable {upper : Char → List Char} (hupper : Text.IsUpperCasing upper) (env : Environment)
include hupper

/-- Settings are read exactly as both variables give them. -/
theorem ofEnvironment_eq_ok_iff (s : Settings) :
    ofEnvironment env = .ok s ↔
      GivesVersion env s.metadataVersion ∧ GivesLevel upper env s.logLevel := by
  rw [GivesVersion, GivesLevel, ← reads_parseVersion.setting_eq_ok_iff,
    ← (reads_parseLevel hupper).setting_eq_ok_iff, ofEnvironment_eq]
  constructor
  · intro h
    cases hversion : setting parseVersion .gcm env versionVariable with
    | error e =>
      rw [hversion] at h
      cases h
    | ok v =>
      cases hlevel : setting parseLevel 20 env levelVariable with
      | error e =>
        rw [hversion, hlevel] at h
        cases h
      | ok level =>
        rw [hversion, hlevel] at h
        cases h
        exact ⟨rfl, rfl⟩
  · rintro ⟨hversion, hlevel⟩
    rw [hversion, hlevel]
    rfl

/-- They are refused for the version, whatever the level is, and for the level otherwise. -/
theorem ofEnvironment_eq_error_iff (e : Failure) :
    ofEnvironment env = .error e ↔ RefusedFor upper env e := by
  have hversionOk (v : Version) :
      setting parseVersion .gcm env versionVariable = .ok v ↔ GivesVersion env v :=
    reads_parseVersion.setting_eq_ok_iff .gcm v
  rw [ofEnvironment_eq]
  constructor
  · intro h
    cases hversion : setting parseVersion .gcm env versionVariable with
    | error e' =>
      rw [hversion] at h
      cases h
      obtain ⟨raw, hraw, hnone, rfl⟩ :=
        (reads_parseVersion.setting_eq_error_iff .gcm e).mp hversion
      exact .version hraw hnone
    | ok v =>
      cases hlevel : setting parseLevel 20 env levelVariable with
      | error e' =>
        rw [hversion, hlevel] at h
        cases h
        obtain ⟨raw, hraw, hnone, rfl⟩ :=
          ((reads_parseLevel hupper).setting_eq_error_iff 20 e).mp hlevel
        exact .level ⟨v, (hversionOk v).mp hversion⟩ hraw hnone
      | ok level =>
        rw [hversion, hlevel] at h
        cases h
  · intro h
    cases h with
    | version hraw hnone =>
      rw [(reads_parseVersion.setting_eq_error_iff .gcm _).mpr ⟨_, hraw, hnone, rfl⟩]
      rfl
    | level hversion hraw hnone =>
      obtain ⟨v, hv⟩ := hversion
      rw [(hversionOk v).mpr hv,
        ((reads_parseLevel hupper).setting_eq_error_iff 20 _).mpr ⟨_, hraw, hnone, rfl⟩]
      rfl

end Environment

end Settings

end SealedMetadata
