import SealedMetadata.Proofs.Payload.LinkKey
import SealedMetadata.Proofs.Random.Counts
import SealedMetadata.Proofs.Settings.Grammar
import SealedMetadata.Proofs.Text.Quotation

/-!
Settings from an environment and what they serve for. Both variables follow a grammar, the version
is judged before the level, and a refusal quotes the value. With settings that were read every
text is encrypted and every new link made, as far as the key of the service allows.
-/

namespace SealedMetadata

namespace Value

theorem kind_of_zeros {n : Int} {e : Failure} (h : zeros n = .error e) :
    e.kind ≠ .unsupportedVersion := by
  unfold zeros at h
  split at h
  · cases h
    decide
  split at h
  · cases h
    decide
  split at h
  · cases h
    decide
  · cases h

theorem kind_of_toByte {container : String} {x : Value} {e : Failure}
    (h : x.toByte container = .error e) : e.kind ≠ .unsupportedVersion := by
  unfold toByte at h
  split at h
  · cases h
  · cases h
  · split at h
    · cases h
    · cases h
      simp only [Failure.kind]
      decide
  · cases h
    decide

theorem kind_of_mapM_toByte {container : String} {items : List Value} {e : Failure}
    (h : items.mapM (toByte container) = .error e) : e.kind ≠ .unsupportedVersion := by
  induction items with
  | nil => cases h
  | cons x items ih =>
    rw [List.mapM_cons] at h
    cases hx : x.toByte container with
    | error e' =>
      rw [hx] at h
      cases h
      exact kind_of_toByte hx
    | ok b =>
      cases hrest : items.mapM (toByte container) with
      | error e' =>
        rw [hx, hrest] at h
        cases h
        exact ih hrest
      | ok bs =>
        rw [hx, hrest] at h
        cases h

theorem kind_of_toBytes {container : String} {x : Value} {e : Failure}
    (h : x.toBytes container = .error e) : e.kind ≠ .unsupportedVersion := by
  -- numbers ask for so many zeros, and sequences are bytes item by item
  unfold toBytes at h
  split at h
  · cases h
  · exact kind_of_zeros h
  · exact kind_of_zeros h
  · exact kind_of_zeros h
  · exact kind_of_mapM_toByte h
  · exact kind_of_mapM_toByte h
  · cases h
  · cases h
    decide

/-- A value that cannot be sealed is no matter of versions. -/
theorem kind_of_sealable {v : Vault} {x : Value} {e : Failure} (h : x.sealable v = .error e) :
    e.kind ≠ .unsupportedVersion := by
  have hbytes {y : Value}
      (h : ((y.toBytes "byte").map Secret.bytes).map Secret.content = .error e) :
      e.kind ≠ .unsupportedVersion := by
    cases hy : y.toBytes "byte" with
    | error e' =>
      rw [hy] at h
      cases h
      exact kind_of_toBytes hy
    | ok b =>
      rw [hy] at h
      cases h
  unfold sealable toSecret at h
  split at h
  · cases h
  · cases h
  · exact hbytes h

end Value

namespace LinkAdd

/-- In a version that there is, a new link fails only for the key of the service. -/
theorem result_new_of_unsealable {apiKey : Value} {v : Vault} {e : Failure}
    (hapi : apiKey.sealable v = .error e) (uuid metadata parent : Value) (linkType : ItemKind)
    (masterKey : Secret) (linkKey : Option Secret) (version : Version) (r : RandomSource) :
    (((new apiKey uuid metadata parent linkType masterKey linkKey (some version.request)).run
      v).run r).result = .error e := by
  obtain ⟨field, hfield⟩ :=
    succeeds_keyField (Version.ofRequest_request version) linkKey masterKey r
  have hversion : (some version.request).getD Settings.default.metadataVersion.request =
      version.request := rfl
  rw [← hversion] at hfield
  rw [new, Vaulted.result_perform_bind _ hfield, ofParts, Vaulted.run_inspect_bind_of_error hapi]

theorem exists_new_of_sealable {apiKey : Value} {v : Vault} {content : Bytes}
    (hapi : apiKey.sealable v = .ok content) (uuid metadata parent : Value) (linkType : ItemKind)
    (masterKey : Secret) (linkKey : Option Secret) (version : Version) (r : RandomSource) :
    ∃ m v', (((new apiKey uuid metadata parent linkType masterKey linkKey
      (some version.request)).run v).run r).result = .ok (m, v') := by
  obtain ⟨field, hfield⟩ :=
    succeeds_keyField (Version.ofRequest_request version) linkKey masterKey r
  have hrun : (keyField linkKey masterKey
      ((some version.request).getD Settings.default.metadataVersion.request)).run r =
      ⟨.ok field, ((keyField linkKey masterKey version.request).run r).events,
        ((keyField linkKey masterKey version.request).run r).source⟩ := by
    rw [← hfield]
    rfl
  exact ⟨_, _, result_new hapi hrun uuid metadata parent linkType⟩

end LinkAdd

namespace Settings

theorem exists_level_of_gives {upper : Char → List Char} {env : Environment} {level : Int}
    (h : GivesLevel upper env level) : ∃ name, (name, level) ∈ Log.levels := by
  have hdefault : ("INFO", 20) ∈ Log.levels := by decide
  rw [GivesLevel] at h
  -- the value is an expression, and cases are possible on a variable only
  generalize env.lookup levelVariable = value at h
  cases h with
  | unset => exact ⟨_, hdefault⟩
  | empty => exact ⟨_, hdefault⟩
  | named hnames => exact ⟨_, hnames⟩

/-- A refusal quotes the value of the variable that it is for. -/
theorem RefusedFor.message {upper : Char → List Char} {env : Environment} {e : Failure}
    (h : RefusedFor upper env e) : e.kind = .invalidValue ∧
      ((∃ raw, env.lookup versionVariable = some raw ∧ (¬ ∃ v, GivesVersion env v) ∧
          e.message? = some ("CLOUDMETA_METADATA_VERSION must be 1 or 2; got " ++
            Text.quoted raw)) ∨
        ∃ raw, (∃ v, GivesVersion env v) ∧ env.lookup levelVariable = some raw ∧
          (¬ ∃ level, GivesLevel upper env level) ∧
          e.message? = some ("CLOUDMETA_LOG_LEVEL is not a logging level: " ++
            Text.quoted raw)) := by
  cases h with
  | version hraw hnone => exact ⟨rfl, Or.inl ⟨_, hraw, hnone, rfl⟩⟩
  | level hversion hraw hnone => exact ⟨rfl, Or.inr ⟨_, hversion, hraw, hnone, rfl⟩⟩

/-- The settings of an environment, whichever way texts are put in upper case. They are read
exactly as both variables give them, and else refused for the version before the level, with the
value quoted; a quoted form is the one of the grammar, and of no other value. No number names a
level. Settings that were read have a version in which every text is encrypted and every new link
made for which the key of the service can be sealed, and the level of a name. -/
theorem environment_follows_grammar {upper : Char → List Char}
    (hupper : Text.IsUpperCasing upper) :
    (∀ env s, ofEnvironment env = .ok s ↔
      GivesVersion env s.metadataVersion ∧ GivesLevel upper env s.logLevel) ∧
    (∀ env e, ofEnvironment env = .error e ↔ RefusedFor upper env e) ∧
    (∀ env e, ofEnvironment env = .error e → e.kind = .invalidValue ∧
      ((∃ raw, env.lookup versionVariable = some raw ∧ (¬ ∃ v, GivesVersion env v) ∧
          e.message? = some ("CLOUDMETA_METADATA_VERSION must be 1 or 2; got " ++
            Text.quoted raw)) ∨
        ∃ raw, (∃ v, GivesVersion env v) ∧ env.lookup levelVariable = some raw ∧
          (¬ ∃ level, GivesLevel upper env level) ∧
          e.message? = some ("CLOUDMETA_LOG_LEVEL is not a logging level: " ++
            Text.quoted raw))) ∧
    (∀ raw shown, Text.IsQuotation raw shown ↔ shown = Text.quoted raw) ∧
    (∀ raw raw' shown, Text.IsQuotation raw shown → Text.IsQuotation raw' shown → raw = raw') ∧
    (∀ raw n level, Text.IsNumeral (String.toList raw) n → ¬ Log.Names upper raw level) ∧
    (∀ env s, ofEnvironment env = .ok s →
      (s.metadataVersion = .cbc ∨ s.metadataVersion = .gcm) ∧
      (∃ name, (name, s.logLevel) ∈ Log.levels) ∧
      (∀ text key r, ∃ field,
        ((Blob.encryptText text key s.metadataVersion.request).run r).result = .ok field) ∧
      (∀ apiKey uuid metadata parent linkType masterKey linkKey v r,
        let made := (((LinkAdd.new apiKey uuid metadata parent linkType masterKey linkKey
          (some s.metadataVersion.request)).run v).run r).result
        (∀ content, apiKey.sealable v = .ok content → ∃ m v', made = .ok (m, v')) ∧
        (∀ e, apiKey.sealable v = .error e → made = .error e ∧ e.kind ≠ .unsupportedVersion))) := by
  refine ⟨?_, ?_, ?_, ?_, ?_, ?_, ?_⟩
  · intro env s
    exact ofEnvironment_eq_ok_iff hupper env s
  · intro env e
    exact ofEnvironment_eq_error_iff hupper env e
  · intro env e h
    exact ((ofEnvironment_eq_error_iff hupper env e).mp h).message
  · intro raw shown
    exact Text.isQuotation_iff
  · intro raw raw' shown h h'
    exact h.text_unique h'
  · intro raw n level h
    exact not_names_of_isNumeral hupper h level
  · intro env s h
    obtain ⟨-, hlevel⟩ := (ofEnvironment_eq_ok_iff hupper env s).mp h
    refine ⟨?_, exists_level_of_gives hlevel, ?_, ?_⟩
    · cases s.metadataVersion with
      | cbc => exact Or.inl rfl
      | gcm => exact Or.inr rfl
    · intro text key r
      exact Blob.succeeds_encryptText (Version.ofRequest_request _) text key r
    · intro apiKey uuid metadata parent linkType masterKey linkKey v r made
      refine ⟨fun content hapi => ?_, fun e hapi => ?_⟩
      · exact LinkAdd.exists_new_of_sealable hapi uuid metadata parent linkType masterKey linkKey
          s.metadataVersion r
      · exact ⟨LinkAdd.result_new_of_unsealable hapi uuid metadata parent linkType masterKey
          linkKey s.metadataVersion r, Value.kind_of_sealable hapi⟩

/-- An environment in other scripts: its version has a blank, a sign, an Arabic digit and an
underscore, and its level a letter whose capital is ASCII. -/
def scriptedEnvironment : Environment :=
  [(versionVariable, " +٠_1\n"), (levelVariable, "ınfo")]

/-- An environment in which neither variable has a value that is one. -/
def twiceBadEnvironment : Environment := [(versionVariable, "3"), (levelVariable, "10")]

/-- Settings from digits and letters of other scripts; and where both variables are bad, it is the
version that is refused. -/
theorem scripted_environment_is_read :
    (∃ s, ofEnvironment scriptedEnvironment = .ok s ∧ s.metadataVersion = .cbc ∧ s.logLevel = 20 ∧
      GivesVersion scriptedEnvironment .cbc ∧
      (∃ field, ((Blob.encryptText (.text "x") (.text "key") s.metadataVersion.request).run
        (.cycle [])).result = .ok field) ∧
      (∃ m v', (((LinkAdd.new (.text "api") (.text "item") (.text "data") (.text "base") .file
        (.text "key") none (some s.metadataVersion.request)).run .empty).run (.cycle [])).result =
          .ok (m, v')) ∧
      (((LinkAdd.new .none (.text "item") (.text "data") (.text "base") .file (.text "key") none
        (some s.metadataVersion.request)).run .empty).run (.cycle [])).result =
          .error .wrongType) ∧
    (∃ e, ofEnvironment twiceBadEnvironment = .error e ∧
      RefusedFor Text.capital twiceBadEnvironment e ∧
      e.message? = some "CLOUDMETA_METADATA_VERSION must be 1 or 2; got '3'" ∧
      Text.IsQuotation "3" "'3'") ∧
    ¬ Log.Names Text.capital "10" 10 := by
  obtain ⟨hread, hrefused, -, hquoted, -, hnumber, hserves⟩ :=
    environment_follows_grammar Text.isUpperCasing_capital
  refine ⟨?_, ?_, ?_⟩
  · have hok : ofEnvironment scriptedEnvironment = .ok ⟨.cbc, 20⟩ := by decide +kernel
    obtain ⟨-, -, hencrypts, hlinks⟩ := hserves _ _ hok
    have hmade := (hlinks (.text "api") (.text "item") (.text "data") (.text "base") .file
      (.text "key") none .empty (.cycle [])).1 (Utf8.encode "api") rfl
    have hfailed := ((hlinks .none (.text "item") (.text "data") (.text "base") .file
      (.text "key") none .empty (.cycle [])).2 .wrongType rfl).1
    exact ⟨_, hok, rfl, rfl, ((hread _ _).mp hok).1,
      hencrypts (.text "x") (.text "key") (.cycle []), hmade, hfailed⟩
  · have herror : ofEnvironment twiceBadEnvironment =
        .error (.invalidValue (.versionSetting "3")) :=
      rfl
    exact ⟨_, herror, (hrefused _ _).mp herror, by decide +kernel,
      (hquoted _ _).mpr (by decide +kernel)⟩
  · exact hnumber "10" 10 10 (Text.IntLiteral.parse_eq_ok_iff.mp rfl)

end Settings

end SealedMetadata
