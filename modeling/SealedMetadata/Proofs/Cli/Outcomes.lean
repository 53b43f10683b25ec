import SealedMetadata.Proofs.Blob.UnreadKey
import SealedMetadata.Proofs.Cli.Running
import SealedMetadata.Proofs.Random.Counts
import SealedMetadata.Proofs.Settings.Grammar

/-!
What a command comes to with a secret: which output it gives, and when it gives one. Every other
outcome is a failure of the library's own, which has a message, unless a text that the command
needs cannot be encoded.
-/

namespace SealedMetadata

/-- A failure of the library's own has a message. -/
theorem Failure.exists_message {e : Failure} (h : e.kind.isOwn = true) :
    ∃ message, e.message? = some message := by
  cases e with
  | missingField | wrongType | notSerializable | missingAttribute | endOfInput | undecodable
  | unencodable | overflow | outOfMemory | invalidValue =>
    exact absurd h (by simp only [kind]; decide)
  | _ => exact ⟨_, rfl⟩

/-- Settings are refused as values that are none. -/
theorem Settings.exists_of_ofEnvironment_error {env : Environment} {e : Failure}
    (h : ofEnvironment env = .error e) : ∃ why, e = .invalidValue why := by
  -- which texts count as names of levels does not matter here
  have hrefused := (ofEnvironment_eq_error_iff Text.isUpperCasing_capital env e).mp h
  cases hrefused with
  | version hraw hnone => exact ⟨_, rfl⟩
  | level hversion hraw hnone => exact ⟨_, rfl⟩

namespace Cli.Command

variable (settings : Settings) (secret : RawText) (r : RandomSource)

/-- The version that an encryption uses. -/
def chosenVersion (version : Option RequestedVersion) : RequestedVersion :=
  version.getD settings.metadataVersion.request

/-- A command has what it needs: a version is supported, a field is decrypted, or credentials have
the salt that they need. -/
def Works : Command → Prop
  | encrypt _ _ version =>
    (chosenVersion settings version).number? = some 1 ∨
      (chosenVersion settings version).number? = some 2
  | decrypt data _ =>
    ∃ text, ((Blob.decryptTextUnread data.secret secret.secret).run r).result = .ok text
  | loginHash authVersion salt _ _ =>
    authVersion.number? = some 1 ∨ authVersion.number? = some 2 ∧ ∃ s ∈ salt, s ≠ []
  | linkHash _ => True

/-- A text that a command reads cannot be encoded. A text is not read where something else is
refused before. -/
def MeetsUnencodable : Command → Prop
  | encrypt data _ version =>
    data.text? = none ∨ secret.text? = none ∧
      ((chosenVersion settings version).number? = some 1 ∨
        (chosenVersion settings version).number? = some 2)
  | decrypt data _ =>
    data.text? = none ∨ secret.text? = none ∧
      ∃ text, data.text? = some text ∧ Blob.FieldReadsKey (Utf8.encode text)
  | loginHash authVersion salt _ _ =>
    authVersion.number? = some 1 ∧ secret.text? = none ∨
      authVersion.number? = some 2 ∧
        ∃ s ∈ salt, s ≠ [] ∧ (s.text? = none ∨ secret.text? = none)
  | linkHash _ => secret.text? = none

/-- An output is that of a command. -/
def Prints (c : Command) (output : String) : Prop :=
  match c with
  | encrypt data _ version =>
    ((Blob.encryptTextUnread data.secret secret.secret (chosenVersion settings version)).run
      r).result = .ok output
  | decrypt data _ =>
    ((Blob.decryptTextUnread data.secret secret.secret).run r).result = .ok output
  | loginHash authVersion salt _ showMasterKey => ∃ c sent masterKey,
    ((Credentials.forVersionUnread authVersion secret.secret (salt.mapM RawText.secret)).run
      r).result = .ok c ∧ c.sentPasswordHex = .ok sent ∧ c.masterKeyHex = .ok masterKey ∧
    output = "sent_password: " ++ sent ++
      if showMasterKey then "\nmaster_key: " ++ masterKey else ""
  | linkHash _ => ∃ hash salt,
    ((Link.hashPasswordUnread secret.secret).run r).result = .ok (hash, salt) ∧
    output = "password_hashed: " ++ hash ++ "\nsalt: " ++ salt

/-- The outcome of a command: an output where it works, and a failure of the library's own
elsewhere, unless it meets a text that cannot be encoded. -/
inductive ComesTo (c : Command) : Except Failure String → Prop
  | unencodable (hmeets : c.MeetsUnencodable settings secret) : ComesTo c (.error .unencodable)
  | output {output : String} (hfine : ¬ c.MeetsUnencodable settings secret)
      (hworks : c.Works settings secret r) (hprints : c.Prints settings secret r output) :
      ComesTo c (.ok output)
  | failure {e : Failure} (hfine : ¬ c.MeetsUnencodable settings secret)
      (hrefused : ¬ c.Works settings secret r) (hown : e.kind.isOwn = true) : ComesTo c (.error e)

theorem ofRequest_iff {requested : RequestedVersion} :
    (requested.number? = some 1 ∨ requested.number? = some 2) ↔
      ∃ v, Version.ofRequest requested = .ok v := by
  rw [Version.ofRequest]
  by_cases hone : requested.number? = some 1
  · rw [if_pos hone]
    exact ⟨fun _ => ⟨_, rfl⟩, fun _ => Or.inl hone⟩
  · rw [if_neg hone]
    by_cases htwo : requested.number? = some 2
    · rw [if_pos htwo]
      exact ⟨fun _ => ⟨_, rfl⟩, fun _ => Or.inr htwo⟩
    · rw [if_neg htwo]
      constructor
      · rintro (h | h)
        · exact absurd h hone
        · exact absurd h htwo
      · rintro ⟨v, hv⟩
        cases hv

theorem comesTo_encrypt (data : RawText) (key : Option RawText)
    (version : Option RequestedVersion) : (encrypt data key version).ComesTo settings secret r
      (((encrypt data key version).perform settings secret).run r).result := by
  have hperform : (encrypt data key version).perform settings secret =
      Blob.encryptTextUnread data.secret secret.secret (chosenVersion settings version) :=
    perform_encrypt settings secret data key version
  rw [hperform]
  cases hdata : data.text? with
  | none =>
    rw [RawText.secret_of_none hdata]
    exact .unencodable (Or.inl hdata)
  | some text =>
    have htext := RawText.secret_of_some hdata
    have hread : ¬ data.text? = none := fun hnone => by cases hdata.symm.trans hnone
    cases hv : Version.ofRequest (chosenVersion settings version) with
    | error e =>
      have hrefused : ¬ (encrypt data key version).Works settings secret r := by
        intro hworks
        obtain ⟨v, hv'⟩ := ofRequest_iff.mp hworks
        cases hv.symm.trans hv'
      have hown : e.kind.isOwn = true := by
        rw [Blob.kind_of_ofRequest hv]
        decide
      rw [htext, Blob.result_encryptTextUnread_of_refused hv]
      exact .failure (fun hmeets => hmeets.elim hread fun h => hrefused h.2) hrefused hown
    | ok v =>
      have hworks : (encrypt data key version).Works settings secret r :=
        ofRequest_iff.mpr ⟨v, hv⟩
      cases hsecret : secret.text? with
      | none =>
        rw [htext, RawText.secret_of_none hsecret, Blob.result_encryptTextUnread_of_error hv]
        exact .unencodable (Or.inr ⟨hsecret, hworks⟩)
      | some s =>
        have hkey := RawText.secret_of_some hsecret
        obtain ⟨field, hfield⟩ := Blob.succeeds_encryptText hv (.text text) (.text s) r
        have hprints : ((Blob.encryptTextUnread data.secret secret.secret
            (chosenVersion settings version)).run r).result = .ok field := by
          rw [htext, hkey]
          exact hfield
        rw [hprints]
        refine .output (fun hmeets => hmeets.elim hread fun h => ?_) hworks hprints
        cases hsecret.symm.trans h.1

theorem comesTo_decrypt (data : RawText) (key : Option RawText) :
    (decrypt data key).ComesTo settings secret r
      (((decrypt data key).perform settings secret).run r).result := by
  rw [perform_decrypt]
  -- a field whose text and key can be read, or whose key is not needed
  have hdecrypted {text : String} {k : Secret} (htext : data.text? = some text)
      (hfine : ¬ (decrypt data key).MeetsUnencodable settings secret)
      (hsame : Blob.decryptTextUnread data.secret secret.secret =
        Blob.decryptText (.text text) k) :
      (decrypt data key).ComesTo settings secret r
        ((Blob.decryptTextUnread data.secret secret.secret).run r).result := by
    cases hresult : ((Blob.decryptTextUnread data.secret secret.secret).run r).result with
    | ok output => exact .output hfine ⟨output, hresult⟩ hresult
    | error e =>
      refine .failure hfine ?_ ?_
      · rintro ⟨output, houtput⟩
        cases hresult.symm.trans houtput
      · rw [hsame, Blob.result_decryptText_eq] at hresult
        exact Blob.isOwn_of_fieldReading hresult
  cases hdata : data.text? with
  | none =>
    rw [RawText.secret_of_none hdata]
    exact .unencodable (Or.inl hdata)
  | some text =>
    have htext := RawText.secret_of_some hdata
    have hread : ¬ data.text? = none := fun hnone => by cases hdata.symm.trans hnone
    by_cases hneeds : Blob.FieldReadsKey (Utf8.encode text)
    · cases hsecret : secret.text? with
      | none =>
        rw [htext, RawText.secret_of_none hsecret,
          Blob.result_decryptTextUnread_of_readsKey (.text text) hneeds]
        exact .unencodable (Or.inr ⟨hsecret, text, hdata, hneeds⟩)
      | some s =>
        refine hdecrypted (k := .text s) hdata (fun hmeets => hmeets.elim hread fun h => ?_) ?_
        · cases hsecret.symm.trans h.1
        · rw [htext, RawText.secret_of_some hsecret]
          rfl
    · refine hdecrypted (k := .text "") hdata (fun hmeets => hmeets.elim hread fun h => ?_) ?_
      · obtain ⟨-, text', htext', hneeds'⟩ := h
        cases hdata.symm.trans htext'
        exact hneeds hneeds'
      · rw [htext]
        exact Blob.decryptTextUnread_of_not_readsKey (.text text) hneeds _ _

/-- Credentials that show as hexadecimal texts are printed as these. -/
theorem credentialLines_of_showsAs {c : Credentials} {masterKey sent : String} {version : Int}
    (h : c.ShowsAs masterKey sent version) (showMasterKey : Bool) :
    credentialLines showMasterKey c = .ok ("sent_password: " ++ sent ++
      if showMasterKey then "\nmaster_key: " ++ masterKey else "") := by
  have hsent : c.sentPasswordHex = .ok sent := h.sentPasswordHex
  have hmaster : c.masterKeyHex = .ok masterKey := h.masterKeyHex
  rw [credentialLines, hsent, hmaster]
  cases showMasterKey with
  | true =>
    have hlines : "sent_password: " ++ sent ++ "\nmaster_key: " ++ masterKey =
        "sent_password: " ++ sent ++ ("\nmaster_key: " ++ masterKey) := String.append_assoc
    exact congrArg Except.ok hlines
  | false => exact congrArg Except.ok (String.append_empty).symm

section LoginHash

variable {authVersion : RequestedVersion} {salt : Option RawText}

/-- A salt in its option is absent, empty, or a text that can be encoded or not. -/
theorem cases_of_salt (salt : Option RawText) :
    (¬ ∃ s ∈ salt, s ≠ []) ∧
        (∃ given : Option Secret, salt.mapM RawText.secret = .ok given ∧
          ∀ s ∈ given, s.content = []) ∨
      ∃ s ∈ salt, s ≠ [] ∧
        (s.text? = none ∧ salt.mapM RawText.secret = .error .unencodable ∨
          ∃ t, s.text? = some t ∧ (Secret.text t).content ≠ [] ∧
            salt.mapM RawText.secret = .ok (some (.text t))) := by
  cases salt with
  | none =>
    refine Or.inl ⟨?_, none, rfl, ?_⟩
    · rintro ⟨s, hs, -⟩
      cases hs
    · intro s hs
      cases hs
  | some s =>
    have hread (h : UnreadSecret) (hs : s.secret = h) :
        (some s).mapM RawText.secret = some <$> h := congrArg (fun x => some <$> x) hs
    by_cases hempty : s = []
    · subst hempty
      refine Or.inl ⟨?_, some (.text ""), rfl, ?_⟩
      · rintro ⟨s, hs, hfull⟩
        cases hs
        exact hfull rfl
      · rintro s ⟨⟩
        rfl
    · refine Or.inr ⟨s, rfl, hempty, ?_⟩
      cases htext : s.text? with
      | none => exact Or.inl ⟨rfl, hread _ (RawText.secret_of_none htext)⟩
      | some t =>
        refine Or.inr ⟨t, rfl, ?_, hread _ (RawText.secret_of_some htext)⟩
        intro hcontent
        have hnone : t = "" := String.isEmpty_iff.mp (Secret.isEmpty_iff.mpr hcontent)
        rw [RawText.text?_eq_some_iff.mp htext, hnone] at hempty
        exact hempty rfl

theorem result_loginHash_of_error {e : Failure}
    (h : ((Credentials.forVersionUnread authVersion secret.secret
      (salt.mapM RawText.secret)).run r).result = .error e)
    (password : Option RawText) (showMasterKey : Bool) :
    (((loginHash authVersion salt password showMasterKey).perform settings secret).run r).result =
      .error e := by
  rw [perform_loginHash, Action.result_bind, h]

theorem prints_loginHash {c : Credentials} {masterKey sent : String} {version : Int}
    (hc : ((Credentials.forVersionUnread authVersion secret.secret
      (salt.mapM RawText.secret)).run r).result = .ok c)
    (hshows : c.ShowsAs masterKey sent version) (password : Option RawText)
    (showMasterKey : Bool) :
    ∃ output, (((loginHash authVersion salt password showMasterKey).perform settings secret).run
        r).result = .ok output ∧
      (loginHash authVersion salt password showMasterKey).Prints settings secret r output := by
  have hlines := credentialLines_of_showsAs hshows showMasterKey
  refine ⟨_, ?_, c, sent, masterKey, hc, hshows.sentPasswordHex, hshows.masterKeyHex, rfl⟩
  rw [perform_loginHash, Action.result_bind, hc]
  dsimp only
  rw [hlines]
  rfl

section Versions

variable (password : Option RawText) (showMasterKey : Bool)

theorem comesTo_loginHash_first (hone : authVersion.number? = some 1) :
    (loginHash authVersion salt password showMasterKey).ComesTo settings secret r
      (((loginHash authVersion salt password showMasterKey).perform settings secret).run
        r).result := by
  have htwo : ¬ authVersion.number? = some 2 := by
    rw [hone]
    decide
  cases hsecret : secret.text? with
  | none =>
    have hfails : ((Credentials.forVersionUnread authVersion secret.secret
        (salt.mapM RawText.secret)).run r).result = .error .unencodable := by
      rw [RawText.secret_of_none hsecret, Credentials.forVersionUnread, if_pos hone]
      rfl
    rw [result_loginHash_of_error settings secret r hfails]
    exact .unencodable (Or.inl ⟨hone, hsecret⟩)
  | some s =>
    have hmade : ((Credentials.forVersionUnread authVersion secret.secret
        (salt.mapM RawText.secret)).run r).result = .ok (Credentials.ofPassword (.text s)) := by
      rw [RawText.secret_of_some hsecret]
      exact Credentials.result_forVersion_first hone (.text s) _
    obtain ⟨output, houtput, hprints⟩ := prints_loginHash settings secret r hmade
      (Credentials.ofPassword_showsAs (.text s)) password showMasterKey
    rw [houtput]
    refine .output ?_ (Or.inl hone) hprints
    rintro (⟨-, hnone⟩ | ⟨hother, -⟩)
    · cases hsecret.symm.trans hnone
    · exact htwo hother

theorem comesTo_loginHash_unsalted (htwo : authVersion.number? = some 2) {given : Option Secret}
    (hgiven : salt.mapM RawText.secret = .ok given) (hempty : ∀ s ∈ given, s.content = [])
    (hunsalted : ¬ ∃ s ∈ salt, s ≠ []) :
    (loginHash authVersion salt password showMasterKey).ComesTo settings secret r
      (((loginHash authVersion salt password showMasterKey).perform settings secret).run
        r).result := by
  have hone : ¬ authVersion.number? = some 1 := by
    rw [htwo]
    decide
  have hfails : ((Credentials.forVersionUnread authVersion secret.secret
      (salt.mapM RawText.secret)).run r).result = .error (.malformed .saltMissing) := by
    rw [hgiven]
    exact Credentials.result_forVersionUnread_unsalted htwo _ hempty
  rw [result_loginHash_of_error settings secret r hfails]
  refine .failure ?_ ?_ rfl
  · rintro (⟨hother, -⟩ | ⟨-, s, hs, hfull, -⟩)
    · exact hone hother
    · exact hunsalted ⟨s, hs, hfull⟩
  · rintro (hother | ⟨-, hsalted⟩)
    · exact hone hother
    · exact hunsalted hsalted

theorem comesTo_loginHash_salted (htwo : authVersion.number? = some 2) {s : RawText} {t : String}
    (hs : s ∈ salt) (hfull : s ≠ []) (htext : s.text? = some t)
    (hcontent : (Secret.text t).content ≠ [])
    (hgiven : salt.mapM RawText.secret = .ok (some (.text t))) :
    (loginHash authVersion salt password showMasterKey).ComesTo settings secret r
      (((loginHash authVersion salt password showMasterKey).perform settings secret).run
        r).result := by
  cases hsecret : secret.text? with
  | none =>
    have hfails : ((Credentials.forVersionUnread authVersion secret.secret
        (salt.mapM RawText.secret)).run r).result = .error .unencodable := by
      rw [hgiven, RawText.secret_of_none hsecret]
      exact Credentials.result_forVersionUnread_salted htwo _ hcontent
    rw [result_loginHash_of_error settings secret r hfails]
    exact .unencodable (Or.inr ⟨htwo, s, hs, hfull, Or.inr hsecret⟩)
  | some p =>
    have hmade : ((Credentials.forVersionUnread authVersion secret.secret
        (salt.mapM RawText.secret)).run r).result =
          Credentials.ofPasswordAndSalt (.text p) (.text t) := by
      rw [hgiven, RawText.secret_of_some hsecret]
      exact Credentials.result_forVersion_second htwo (.text p) hcontent
    rw [Credentials.ofPasswordAndSalt_eq] at hmade
    obtain ⟨output, houtput, hprints⟩ := prints_loginHash settings secret r hmade
      (Credentials.halves_showsAs _) password showMasterKey
    rw [houtput]
    refine .output ?_ (Or.inr ⟨htwo, s, hs, hfull⟩) hprints
    rintro (⟨hone, -⟩ | ⟨-, s', hs', -, hnone⟩)
    · cases htwo.symm.trans hone
    · cases hs.symm.trans hs'
      rcases hnone with hnone | hnone
      · cases htext.symm.trans hnone
      · cases hsecret.symm.trans hnone

theorem comesTo_loginHash :
    (loginHash authVersion salt password showMasterKey).ComesTo settings secret r
      (((loginHash authVersion salt password showMasterKey).perform settings secret).run
        r).result := by
  by_cases hone : authVersion.number? = some 1
  · exact comesTo_loginHash_first settings secret r password showMasterKey hone
  by_cases htwo : authVersion.number? = some 2
  · obtain ⟨hunsalted, given, hgiven, hempty⟩ | ⟨s, hs, hfull, hsalt⟩ := cases_of_salt salt
    · exact comesTo_loginHash_unsalted settings secret r password showMasterKey htwo hgiven hempty
        hunsalted
    · obtain ⟨hnone, hgiven⟩ | ⟨t, htext, hcontent, hgiven⟩ := hsalt
      · have hfails : ((Credentials.forVersionUnread authVersion secret.secret
            (salt.mapM RawText.secret)).run r).result = .error .unencodable := by
          rw [hgiven, Credentials.forVersionUnread, if_neg hone, if_pos htwo]
          rfl
        rw [result_loginHash_of_error settings secret r hfails]
        exact .unencodable (Or.inr ⟨htwo, s, hs, hfull, Or.inl hnone⟩)
      · exact comesTo_loginHash_salted settings secret r password showMasterKey htwo hs hfull htext
          hcontent hgiven
  · -- neither version: nothing is read
    have hfails : ((Credentials.forVersionUnread authVersion secret.secret
        (salt.mapM RawText.secret)).run r).result =
          .error (.unsupportedVersion authVersion.shown) := by
      rw [Credentials.forVersionUnread, if_neg hone, if_neg htwo]
      rfl
    rw [result_loginHash_of_error settings secret r hfails]
    refine .failure ?_ ?_ rfl
    · rintro (⟨hother, -⟩ | ⟨hother, -⟩)
      · exact hone hother
      · exact htwo hother
    · rintro (hother | ⟨hother, -⟩)
      · exact hone hother
      · exact htwo hother

end Versions

end LoginHash

theorem comesTo_linkHash (password : Option RawText) :
    (linkHash password).ComesTo settings secret r
      (((linkHash password).perform settings secret).run r).result := by
  rw [perform_linkHash]
  cases hsecret : secret.text? with
  | none =>
    rw [RawText.secret_of_none hsecret]
    exact .unencodable hsecret
  | some s =>
    have hread := RawText.secret_of_some hsecret
    have hmade : ((Link.hashPasswordUnread secret.secret).run r).result =
        .ok (Link.passwordHash (.text s) (r.peek 32), Hex.encode (r.peek 32)) := by
      rw [hread]
      rfl
    rw [Action.result_bind, hmade]
    refine .output ?_ trivial ⟨_, _, hmade, rfl⟩
    intro hnone
    cases hsecret.symm.trans hnone

theorem comesTo_perform (c : Command) :
    c.ComesTo settings secret r ((c.perform settings secret).run r).result := by
  cases c with
  | encrypt data key version => exact comesTo_encrypt settings secret r data key version
  | decrypt data key => exact comesTo_decrypt settings secret r data key
  | loginHash authVersion salt password showMasterKey =>
    exact comesTo_loginHash settings secret r password showMasterKey
  | linkHash password => exact comesTo_linkHash settings secret r password

end Cli.Command

end SealedMetadata
