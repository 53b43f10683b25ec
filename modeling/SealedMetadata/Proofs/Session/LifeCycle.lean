import SealedMetadata.Proofs.Session.Handout

/-!
Sealed values over whole sessions. A sealed value has the bytes that it was made with until a step
releases it, and none from then on. What an operation hands out as its own keeps its bytes when
the values that it was made from are released.
-/

namespace SealedMetadata.Session

open Vaulted (Has OnlyAdds)

/-- A step makes a sealed value: its buffer comes with that step. -/
def Makes (st : State) (s : Step) (t : Sealed) : Prop :=
  st.vault.buffers.size ≤ t.slot ∧ t.slot < (step st s).state.vault.buffers.size

/-- Some step of a run releases a buffer. -/
def Releases (st : State) : List Step → Nat → Prop
  | [], _ => False
  | s :: ss, slot => (∃ k ∈ released st s, k.slot = slot) ∨ Releases (step st s).state ss slot

instance decidableReleases : ∀ (st : State) (ss : List Step) (slot : Nat),
    Decidable (Releases st ss slot)
  | _, [], _ => inferInstanceAs (Decidable False)
  | st, s :: ss, slot =>
    have := decidableReleases (step st s).state ss slot
    inferInstanceAs (Decidable
      ((∃ k ∈ released st s, k.slot = slot) ∨ Releases (step st s).state ss slot))

section Steps

variable (st : State) (s : Step)

theorem size_step : (step st s).state.vault.buffers.size = (filled st s).buffers.size := by
  rw [(step_vault st s).2, Vault.size_wipeAll]

theorem size_le_step : st.vault.buffers.size ≤ (step st s).state.vault.buffers.size := by
  rw [size_step]
  exact (step_vault st s).1.size_le

theorem content_step (t : Sealed) :
    (step st s).state.vault.content t =
      if ∃ k ∈ released st s, k.slot = t.slot then [] else (filled st s).content t := by
  rw [(step_vault st s).2, Vault.content_wipeAll]

variable {st s}

theorem content_filled {t : Sealed} (ht : t.slot < st.vault.buffers.size) :
    (filled st s).content t = st.vault.content t :=
  (step_vault st s).1.content_eq ht

/-- A step that releases nothing leaves all older values as they are. -/
theorem content_step_of_keeping (h : released st s = []) {t : Sealed}
    (ht : t.slot < st.vault.buffers.size) :
    (step st s).state.vault.content t = st.vault.content t := by
  rw [content_step, h, if_neg (by rintro ⟨k, hk, -⟩; cases hk), content_filled ht]

end Steps

/-- One step before the others: what it releases is empty whatever they do. -/
theorem content_runAll_cons {st : State} {s : Step} {ss : List Step} {t : Sealed}
    (hrest : (runAll (step st s).state ss).2.vault.content t =
      if Releases (step st s).state ss t.slot then [] else (step st s).state.vault.content t) :
    (runAll st (s :: ss)).2.vault.content t =
      if Releases st (s :: ss) t.slot then [] else (filled st s).content t := by
  rw [content_step] at hrest
  refine Eq.trans hrest ?_
  by_cases hlater : Releases (step st s).state ss t.slot
  · rw [if_pos hlater, if_pos (.inr hlater)]
  · rw [if_neg hlater]
    by_cases hnow : ∃ k ∈ released st s, k.slot = t.slot
    · rw [if_pos hnow, if_pos (.inl hnow)]
    · rw [if_neg hnow, if_neg]
      rintro (h | h)
      · exact hnow h
      · exact hlater h

/-- A run empties what it releases, and leaves everything else that was there as it was. -/
theorem content_runAll (st : State) (ss : List Step) {t : Sealed}
    (ht : t.slot < st.vault.buffers.size) :
    (runAll st ss).2.vault.content t =
      if Releases st ss t.slot then [] else st.vault.content t := by
  induction ss generalizing st with
  | nil => rfl
  | cons s ss ih =>
    -- the value is still there after the first step, so the rest of the run is known of it
    have hstill : t.slot < (step st s).state.vault.buffers.size :=
      Nat.lt_of_lt_of_le ht (size_le_step st s)
    have hrest := ih (step st s).state hstill
    rw [content_runAll_cons hrest, content_filled ht]

/-- A value that a step made has its bytes until it is released. -/
theorem content_of_made {st : State} {s : Step} {t : Sealed} (h : Makes st s t)
    (later : List Step) :
    (runAll st (s :: later)).2.vault.content t =
      if Releases st (s :: later) t.slot then [] else (filled st s).content t :=
  content_runAll_cons (content_runAll (step st s).state later h.2)

/-- What was not there at first was made by a step of the run. -/
theorem exists_maker (st : State) (ss : List Step) {t : Sealed}
    (hlow : st.vault.buffers.size ≤ t.slot)
    (hhigh : t.slot < (runAll st ss).2.vault.buffers.size) :
    ∃ before s after, ss = before ++ s :: after ∧ Makes (runAll st before).2 s t := by
  induction ss generalizing st with
  | nil => exact absurd hhigh (Nat.not_lt.mpr hlow)
  | cons s ss ih =>
    -- either the first step made it, or it was not there after that step, either
    by_cases hfirst : t.slot < (step st s).state.vault.buffers.size
    · exact ⟨[], s, ss, rfl, hlow, hfirst⟩
    · obtain ⟨before, s', after, hsteps, hmakes⟩ :=
        ih (step st s).state (Nat.not_lt.mp hfirst) hhigh
      exact ⟨s :: before, s', after, congrArg (s :: ·) hsteps, hmakes⟩

/-- A value of a session has the bytes that some step made it with, or none once it has been
released. -/
theorem content_of_session (time : String) (source : RandomSource) (ss : List Step) {t : Sealed}
    (ht : t.slot < (runAll (State.start time source) ss).2.vault.buffers.size) :
    ∃ before s after, ss = before ++ s :: after ∧
      let st := (runAll (State.start time source) before).2
      Makes st s t ∧
        (runAll (State.start time source) ss).2.vault.content t =
          if Releases st (s :: after) t.slot then [] else (filled st s).content t := by
  obtain ⟨before, s, after, rfl, hmakes⟩ :=
    exists_maker (State.start time source) ss (Nat.zero_le _) ht
  refine ⟨before, s, after, rfl, hmakes, ?_⟩
  rw [state_runAll_append]
  exact content_of_made hmakes after

/-- What is empty stays empty. -/
theorem content_stays_empty (st : State) (ss ts : List Step) {t : Sealed}
    (ht : t.slot < (runAll st ss).2.vault.buffers.size)
    (hempty : (runAll st ss).2.vault.content t = []) :
    (runAll st (ss ++ ts)).2.vault.content t = [] := by
  rw [state_runAll_append, content_runAll _ ts ht, hempty, ite_self]

/-- What the reading of master keys does to a vault, once their text is decrypted. The text is held
in the next buffer and the keys behind it. That buffer is empty in the end, and no older one is
touched. -/
structure SpendsKeyText (field key : Secret) (v : Vault) (r : RandomSource) (text : String) :
    Prop where
  grown : v.Grown ((MasterKeys.readSealed (some field) key).left v r)
  spent : ((MasterKeys.readSealed (some field) key).left v r).content
    (v.add .text (Utf8.encode text)).1 = []
  kept : ∃ keys, ((MasterKeys.readSealed (some field) key).act v r).1.result = .ok keys ∧
    keys.map ((MasterKeys.readSealed (some field) key).left v r).content =
      (MasterKeys.keysIn text).map Utf8.encode ∧
    ∀ k ∈ keys, (v.add .text (Utf8.encode text)).1.slot < k.slot

theorem spendsKeyText {field : Secret} (hfull : field.isEmpty = false) {key : Secret}
    {r : RandomSource} {text : String}
    (h : ((Blob.decryptText field key).run r).result = .ok text) (v : Vault) :
    SpendsKeyText field key v r text := by
  have hadds : Has OnlyAdds (MasterKeys.readSealed (some field) key) := inferInstance
  have hleft : (MasterKeys.readSealed (some field) key).left v r =
      ((v.add .text []).2.addTexts (MasterKeys.keysIn text)).2 := by
    rw [Vaulted.left, MasterKeys.act_readSealed_some hfull, h]
  constructor
  · exact hadds.holds v r
  · have hold := Vault.content_addTexts_old (v.add .text []).2 (MasterKeys.keysIn text)
      (Vault.slot_add_lt v .text [])
    rw [hleft]
    exact hold.trans (Vault.content_add_new v .text [])
  · refine ⟨((v.add .text []).2.addTexts (MasterKeys.keysIn text)).1, ?_, ?_, ?_⟩
    · rw [MasterKeys.act_readSealed_some hfull, h]
    · rw [hleft]
      exact Vault.content_addTexts _ _
    · intro k hk
      have hsize : (v.add .text []).2.buffers.size ≤ k.slot := Vault.size_le_slot_addTexts hk
      rw [Vault.size_add] at hsize
      exact hsize

/-- What the reading of a private key does to a vault, once its text is decrypted. The text is held
in the next buffer, which is empty in the end, also where the text is no base64. The key is behind
it, and no older buffer is touched. -/
structure SpendsBase64 (field key : Secret) (v : Vault) (r : RandomSource) (text : String) :
    Prop where
  grown : v.Grown ((PrivateKey.readSealed (some field) key).left v r)
  spent : ((PrivateKey.readSealed (some field) key).left v r).content
    (v.add .text (Utf8.encode text)).1 = []
  refused : ∀ e, PrivateKey.ofBase64 (Utf8.encode text) = .error e →
    ((PrivateKey.readSealed (some field) key).act v r).1.result = .error e
  kept : ∀ b, PrivateKey.ofBase64 (Utf8.encode text) = .ok b →
    ∃ s, ((PrivateKey.readSealed (some field) key).act v r).1.result = .ok s ∧
      ((PrivateKey.readSealed (some field) key).left v r).content s = b ∧
      (v.add .text (Utf8.encode text)).1.slot < s.slot

theorem spendsBase64 {field : Secret} (hfull : field.isEmpty = false) {key : Secret}
    {r : RandomSource} {text : String}
    (h : ((Blob.decryptText field key).run r).result = .ok text) (v : Vault) :
    SpendsBase64 field key v r text := by
  have hadds : Has OnlyAdds (PrivateKey.readSealed (some field) key) := inferInstance
  have hspent : (v.add .text []).2.content (v.add .text (Utf8.encode text)).1 = [] :=
    Vault.content_add_new v .text []
  constructor
  · exact hadds.holds v r
  · rw [Vaulted.left, PrivateKey.act_readSealed_some hfull, h]
    dsimp only
    cases PrivateKey.ofBase64 (Utf8.encode text) with
    | error e => exact hspent
    | ok b =>
      have hold := Vault.content_add_old (v.add .text []).2 .bytes b (Vault.slot_add_lt v .text [])
      exact hold.trans hspent
  · intro e he
    rw [PrivateKey.act_readSealed_some hfull, h]
    dsimp only
    rw [he]
  · intro b hb
    have hact := PrivateKey.act_readSealed_some hfull key v r
    rw [h] at hact
    dsimp only at hact
    rw [hb] at hact
    refine ⟨((v.add .text []).2.add .bytes b).1, ?_, ?_, ?_⟩
    · rw [hact]
    · rw [Vaulted.left, hact]
      exact Vault.content_add_new _ .bytes b
    · exact Vault.slot_add_lt v .text []

theorem own_of_object? {reply : Reply} {log : Option (List String)} {o : Object}
    (h : (Answer.ofReply reply log).object? = some o) : reply.own = o.own := by
  cases reply with
  | object _ =>
    cases h
    rfl
  | search tried result =>
    cases result <;> cases h
    rfl
  | description d => cases h
  | report r => cases h

/-- The sealed values in an answer were made by the step that gives it. -/
theorem makes_of_mem_own {st : State} {s : Step} (hpasses : s.operation.passesOn = false)
    (hrelease : s.operation.isRelease = false) {o : Object}
    (h : (step st s).answer.object? = some o) {k : Sealed} (hk : k ∈ o.own) : Makes st s k := by
  cases hresult : ((s.operation.run st.time st.names).act st.vault st.source).1.result with
  | error e =>
    rw [Answer.object?, step_of_error hresult] at h
    cases h
  | ok reply =>
    have hrun := Vaulted.result_run_of_ok hresult
    obtain ⟨log, hanswer, hvault⟩ := step_of_ok hrun
    rw [hanswer] at h
    rw [← own_of_object? h] at hk
    rw [Makes, hvault]
    rcases Operation.handsOut st.names st.time hpasses hrelease _ _ _ _ hrun k hk with hnone | hnew
    · cases hnone
    · exact hnew

/-- A new value keeps its bytes while only older ones are released. -/
theorem content_of_new {st : State} {s : Step} {k : Sealed} (h : Makes st s k) {later : List Step}
    (holder : ∀ slot, Releases (step st s).state later slot → slot < st.vault.buffers.size) :
    (runAll (step st s).state later).2.vault.content k = (step st s).state.vault.content k := by
  rw [content_runAll _ later h.2, if_neg]
  intro hreleased
  exact absurd (holder k.slot hreleased) (Nat.not_lt.mpr h.1)

/-- A copy of a sealed value has the bytes of that value. -/
theorem exists_copy (st : State) (kind : SealedKind) {name : String} {path : List Int} {t : Sealed}
    (h : lookup st.names name path = .ok (.value (.sealed t))) (name? : Option String)
    (level? : Option Int) :
    let made := step st ⟨.secret .identity (.sealedCopy kind (.stored name path)), name?, level?⟩
    ∃ c, made.answer.object? = some (.value (.sealed c)) ∧
      made.state.vault.content c = st.vault.content t := by
  intro made
  have hsource : (((Arg.stored name path).eval st.names).run st.vault).run st.source =
      ⟨.ok (.value (.sealed t), st.vault), [], st.source⟩ := by
    rw [Arg.eval, h]
    rfl
  have hcontent : (Value.sealed t).sealable st.vault = .ok (st.vault.content t) :=
    congrArg Except.ok (Vault.content_secret st.vault t)
  obtain ⟨c, v, hkeep, -, hcopied, -⟩ :=
    Vaulted.exists_kept kind (st.vault.content t) st.vault st.source
  have hcopy : (((Arg.sealedCopy kind (.stored name path)).eval st.names).run st.vault).run
      st.source = ⟨.ok (.value (.sealed c), v), [], st.source⟩ := by
    rw [Arg.eval, Vaulted.run_bind_of_silent _ hsource,
      Vaulted.run_bind_of_silent _ (Vaulted.run_inspect hcontent st.source),
      Vaulted.run_bind_of_silent _ hkeep]
    rfl
  have hrun : ((Operation.run st.time st.names
      (.secret .identity (.sealedCopy kind (.stored name path)))).run st.vault).run st.source =
        ⟨.ok (.object (.value (.sealed c)), v), [], st.source⟩ := by
    rw [Operation.run, SecretQuery.run, Vaulted.run_bind_of_silent _ hcopy]
    rfl
  obtain ⟨log, hanswer, hvault⟩ :=
    step_of_ok (s := ⟨_, name?, level?⟩) (congrArg Outcome.result hrun)
  refine ⟨c, ?_, ?_⟩
  · rw [hanswer]
    rfl
  · rw [hvault]
    exact hcopied

/-- The life of sealed values over whole sessions. A step puts new buffers behind the old ones and
then empties those that it releases. So each value of a session has the bytes that some step made
it with, or none if it has been released since, and stays empty from then on. Only wiping and
leaving a scope release a value, itself or as a half of credentials; all other steps leave every
older value as it is, whether they succeed or fail, and so do those that fail to release. What is
wiped inside the reading of master keys and of a private key is the buffer of their own text. The
values that an operation hands out as its own keep their bytes when older ones are released, and a
copy has the bytes of its source. -/
theorem sealed_values_live_until_released :
    (∀ st s, st.vault.Grown (filled st s) ∧
      (step st s).state.vault = (filled st s).wipeAll (released st s)) ∧
    (∀ time source ss (t : Sealed),
      t.slot < (runAll (State.start time source) ss).2.vault.buffers.size →
      ∃ before s after, ss = before ++ s :: after ∧
        let st := (runAll (State.start time source) before).2
        Makes st s t ∧
          (runAll (State.start time source) ss).2.vault.content t =
            if Releases st (s :: after) t.slot then [] else (filled st s).content t) ∧
    (∀ st ss ts (t : Sealed), t.slot < (runAll st ss).2.vault.buffers.size →
      (runAll st ss).2.vault.content t = [] → (runAll st (ss ++ ts)).2.vault.content t = []) ∧
    (∀ st s k, k ∈ released st s →
      (∃ value, (s.operation = .secret .wipe value ∨ s.operation = .secret .scope value) ∧
        ((Arg.eval st.names value).act st.vault st.source).1.result =
          .ok (.value (.sealed k))) ∨
      (∃ credentials c, (s.operation = .credential (.wipe credentials) ∨
          s.operation = .credential (.scope credentials)) ∧
        ((Arg.evalCredentials st.names credentials).act st.vault st.source).1.result = .ok c ∧
        (k = c.masterKey ∨ k = c.sentPassword))) ∧
    (∀ st s (t : Sealed),
      s.operation.isRelease = false ∨ (∃ e, (step st s).answer.result = .error e) ∧
        (∀ credentials, s.operation ≠ .credential (.scope credentials)) →
      t.slot < st.vault.buffers.size →
      (step st s).state.vault.content t = st.vault.content t) ∧
    (∀ field key v r text, Secret.isEmpty field = false →
      ((Blob.decryptText field key).run r).result = .ok text →
      SpendsKeyText field key v r text ∧ SpendsBase64 field key v r text) ∧
    (∀ st s o k later, s.operation.passesOn = false → s.operation.isRelease = false →
      (step st s).answer.object? = some o → k ∈ o.own →
      (∀ slot, Releases (step st s).state later slot → slot < st.vault.buffers.size) →
      Makes st s k ∧
        (runAll (step st s).state later).2.vault.content k = (step st s).state.vault.content k) ∧
    (∀ st kind name path t name? level?, lookup st.names name path = .ok (.value (.sealed t)) →
      let made := step st ⟨.secret .identity (.sealedCopy kind (.stored name path)), name?, level?⟩
      ∃ c, made.answer.object? = some (.value (.sealed c)) ∧
        made.state.vault.content c = st.vault.content t) := by
  refine ⟨step_vault, ?_, ?_, ?_, ?_, ?_, ?_, ?_⟩
  · intro time source ss t ht
    exact content_of_session time source ss ht
  · intro st ss ts t ht hempty
    exact content_stays_empty st ss ts ht hempty
  · intro st s k hk
    exact release_of_mem_released hk
  · intro st s t hkeeping ht
    have hreleased : released st s = [] := by
      rcases hkeeping with hoperation | ⟨⟨e, herror⟩, hscope⟩
      · exact released_eq_nil st hoperation
      · exact released_eq_nil_of_error herror hscope
    exact content_step_of_keeping hreleased ht
  · intro field key v r text hfull htext
    exact ⟨spendsKeyText hfull htext v, spendsBase64 hfull htext v⟩
  · intro st s o k later hpasses hrelease hobject hk holder
    have hmakes := makes_of_mem_own hpasses hrelease hobject hk
    exact ⟨hmakes, content_of_new hmakes holder⟩
  · intro st kind name path t name? level? hlookup
    exact exists_copy st kind hlookup name? level?

/-- A session with a key in it. -/
def withKey : State :=
  (step (State.start "12:00:00" (.cycle [7]))
    ⟨.secret .identity (.sealedCopy .text (.value (.text "key"))), some "source", none⟩).state

def copyStep : Step :=
  ⟨.secret .identity (.sealedCopy .text (.stored "source" [])), some "copy", none⟩

def wipeStep : Step := ⟨.secret .wipe (.stored "source" []), none, none⟩

/-- A copy is as it was after its source has been wiped, and nothing fills the source again. A field
that holds no private key is refused: the buffer of its text is empty then, and the source as it
was. -/
theorem copy_outlives_source :
    lookup withKey.names "source" [] = .ok (.value (.sealed ⟨.text, 0⟩)) ∧
      (step withKey copyStep).state.vault.content ⟨.text, 0⟩ = [107, 101, 121] ∧
      (∀ ss, (runAll withKey ([copyStep, wipeStep] ++ ss)).2.vault.content ⟨.text, 0⟩ = []) ∧
      (∃ c, (step withKey copyStep).answer.object? = some (.value (.sealed c)) ∧
        (runAll withKey [copyStep, wipeStep]).2.vault.content c = [107, 101, 121]) ∧
      ∃ field, let reading := PrivateKey.readSealed (some (.text field)) (.text "key")
        (reading.act withKey.vault (.cycle [])).1.result =
            .error (.malformed .privateKeyNotBase64) ∧
          (reading.left withKey.vault (.cycle [])).content ⟨.text, 1⟩ = [] ∧
          (reading.left withKey.vault (.cycle [])).content ⟨.text, 0⟩ = [107, 101, 121] := by
  have hlookup : lookup withKey.names "source" [] = .ok (.value (.sealed ⟨.text, 0⟩)) := rfl
  have hsource : withKey.vault.content ⟨.text, 0⟩ = [107, 101, 121] := by decide
  obtain ⟨-, -, hempty, -, hkeeps, hspends, hnew, hcopy⟩ := sealed_values_live_until_released
  have hsame := hkeeps withKey copyStep ⟨.text, 0⟩ (.inl rfl) (by decide)
  obtain ⟨c, hobject, hcontent⟩ :=
    hcopy withKey .text "source" [] ⟨.text, 0⟩ (some "copy") none hlookup
  have hreleased : released (step withKey copyStep).state wipeStep = [⟨.text, 0⟩] := rfl
  have holder : ∀ slot, Releases (step withKey copyStep).state [wipeStep] slot →
      slot < withKey.vault.buffers.size := by
    rintro slot (⟨k, hk, rfl⟩ | hlater)
    · rw [hreleased] at hk
      rw [List.mem_singleton.mp hk]
      decide
    · cases hlater
  have hkept := (hnew withKey copyStep (.value (.sealed c)) c [wipeStep] rfl rfl hobject
    List.mem_cons_self holder).2
  have htwo : Version.ofRequest (.ofInt 2) = .ok .gcm := rfl
  obtain ⟨field, -, hfull, hread⟩ :=
    Blob.exists_field_of_text htwo "?" (.text "key") (.cycle [])
  have hbytes : Secret.isEmpty (.text field) = false := by
    rw [Secret.isEmpty, ← Bool.not_eq_true, String.isEmpty_iff]
    exact hfull
  have hspent := (hspends (.text field) (.text "key") withKey.vault (.cycle []) "?" hbytes
    (hread (.text "key") (.cycle []) rfl)).2
  have hold := hspent.grown.content_eq (s := ⟨.text, 0⟩) (by decide)
  refine ⟨hlookup, hsame.trans hsource, ?_,
    ⟨c, hobject, hkept.trans (hcontent.trans hsource)⟩,
    ⟨field, hspent.refused _ rfl, hspent.spent, hold.trans hsource⟩⟩
  intro ss
  exact hempty withKey [copyStep, wipeStep] ss ⟨.text, 0⟩ (by decide) (by decide)

end SealedMetadata.Session
