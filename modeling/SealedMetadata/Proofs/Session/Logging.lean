import SealedMetadata.Proofs.Log.AccountEvents
import SealedMetadata.Proofs.Session.Parts
import SealedMetadata.Proofs.Session.Vaulted

/-!
What the operations of a session log. What an operation is about is told by an account of it, which
reads the same arguments and names public quantities: lengths, versions and counts. Together with
the kind of the answer it settles the events.
-/

namespace SealedMetadata

open Log (Subject kind?)
open SealedMetadata.Action (LogsAs Silent)

namespace Session

/-- The kind of failure in an answer, absent for a success. -/
def Answer.outcome (a : Answer) : Option FailureKind := kind? a.result

/-- The kind of failure that an operation will answer. A search may answer a failure, too. -/
def outcomeOf (result : Except Failure Reply) : Option FailureKind :=
  match result with
  | .ok reply => (Answer.ofReply reply none).outcome
  | .error e => some e.kind

end Session

open Session (Reply Answer Names Arg outcomeOf)

namespace Vaulted

variable {α β : Type}

/-- An operation that logs nothing, whatever is in the vault. -/
def LogsNothing (α : Type) (x : Vaulted α) : Prop := ∀ v r, (x.act v r).1.events = []

/-- What follows without a word adds nothing to the events. -/
theorem events_bind_of_silent (x : Vaulted α) (f : α → Vaulted β) [hf : ∀ a, Has LogsNothing (f a)]
    (v : Vault) (r : RandomSource) : ((x >>= f).act v r).1.events = (x.act v r).1.events := by
  rw [act_bind]
  cases (x.act v r).1.result with
  | error e => rfl
  | ok a =>
    dsimp only
    rw [(hf a).holds, List.append_nil]

instance : Structural LogsNothing where
  pure _ _ _ := rfl
  bind {_ _ x f} hx hf v r := by
    have hnext (a : _) : Has LogsNothing (f a) := ⟨hf a⟩
    rw [events_bind_of_silent x f]
    exact hx v r
  get _ _ := rfl
  result _ _ _ := rfl
  keep _ _ _ _ := rfl

instance (x : Action α) [hx : Silent x] : Has LogsNothing (perform x) := ⟨fun _ r => hx.silent r⟩

instance (s : Sealed) : Has LogsNothing (wipe s) := ⟨fun _ _ => rfl⟩

instance (c : SealedCredentials) : Has LogsNothing c.wipe := ⟨fun _ _ => rfl⟩

instance (x : Vaulted α) (change : Vault → Vault) [hx : Has LogsNothing x] :
    Has LogsNothing (x.ensuring change) :=
  ⟨hx.holds⟩

instance (s : Sealed) (x : Vaulted α) [Has LogsNothing x] : Has LogsNothing (within s x) :=
  inferInstanceAs (Has LogsNothing (x.ensuring _))

instance (c : SealedCredentials) (x : Vaulted α) [Has LogsNothing x] :
    Has LogsNothing (c.within x) :=
  inferInstanceAs (Has LogsNothing (x.ensuring _))

/-- The subject that an account comes to, nothing if it fails. -/
def subjectTold (account : Vaulted Subject) (v : Vault) (r : RandomSource) : Subject :=
  match (account.act v r).1.result with
  | .ok s => s
  | .error _ => .nothing

/-- An operation leaves the events of the subject that its account tells, with the outcome that
it answers. -/
def LogsAsTold (x : Vaulted Reply) (account : Vaulted Subject) : Prop :=
  ∀ v r, (x.act v r).1.events =
    (subjectTold account v r).events (outcomeOf (x.act v r).1.result)

theorem logsAsTold_nothing (x : Vaulted Reply) [hx : Has LogsNothing x] :
    LogsAsTold x (return .nothing) :=
  hx.holds

theorem logsAsTold_perform {x : Action α} {s : Subject} (h : x.LogsAs s) (hs : s.IsSteady)
    (f : α → Vaulted Reply) [∀ a, Has LogsNothing (f a)] :
    LogsAsTold (perform x >>= f) (return s) := by
  intro v r
  rw [events_bind_of_silent, act_perform]
  exact (h r).trans ((hs _).trans (hs _).symm)

/-- An operation and its account read the same argument and go on with its value. -/
theorem LogsAsTold.after {e : Vaulted α} [he : Has LogsNothing e] {f : α → Vaulted Reply}
    {g : α → Vaulted Subject} (h : ∀ a, LogsAsTold (f a) (g a)) :
    LogsAsTold (e >>= f) (e >>= g) := by
  intro v r
  rw [subjectTold, act_bind, act_bind, he.holds v r]
  -- both read the argument from the same state, and so to the same value
  cases (e.act v r).1.result with
  | error err => rfl
  | ok a => exact h a (e.left v r) (e.act v r).1.source

theorem subjectTold_perform {x : Action α} {r : RandomSource} {a : α}
    (h : (x.run r).result = .ok a) (f : α → Subject) (v : Vault) :
    subjectTold (perform x >>= fun a => return f a) v r = f a := by
  rw [subjectTold, act_perform_bind, h]
  rfl

theorem logsAsTold_of_events {x : Action α} {f : α → Vaulted Reply} {account : Vaulted Subject}
    [∀ a, Has LogsNothing (f a)]
    (h : ∀ v r, (x.run r).events = (subjectTold account v r).events
      (outcomeOf ((perform x >>= f).act v r).1.result)) :
    LogsAsTold (perform x >>= f) account := by
  intro v r
  rw [← h, events_bind_of_silent, act_perform]

/-- An operation on what an action gives answers with the outcome of the action, if it succeeds
itself. -/
theorem outcomeOf_bind {x : Action α} {f : α → Vaulted Reply}
    (h : ∀ a v r, ∃ o, ((f a).act v r).1.result = .ok (.object o)) (v : Vault) (r : RandomSource) :
    outcomeOf ((perform x >>= f).act v r).1.result = kind? (x.run r).result := by
  rw [act_perform_bind]
  cases (x.run r).result with
  | error e => rfl
  | ok a =>
    obtain ⟨o, ho⟩ := h a v (x.run r).source
    dsimp only
    rw [ho]
    rfl

/-- The reply to a search tells of its outcome, where what is found can be kept. -/
theorem logsAsTold_search {x : Action (Blob.Search α)} {subject : Nat → Subject}
    (h : ∀ r, ∃ search, (x.run r).result = .ok search ∧
      (x.run r).events = (subject search.tried).events (kind? search.result))
    {keep : α → Vaulted Object} [∀ a, Has LogsNothing (keep a)]
    (hkeep : ∀ a v r, ∃ o w, (keep a).act v r = (⟨.ok o, [], r⟩, w)) :
    LogsAsTold (perform x >>= fun search => Session.replySearch search keep)
      (perform x >>= fun search => return subject search.tried) := by
  refine logsAsTold_of_events fun v r => ?_
  obtain ⟨search, hsearch, hevents⟩ := h r
  have htold := subjectTold_perform hsearch (fun search => subject search.tried) v
  have houtcome : outcomeOf ((perform x >>= fun search =>
      Session.replySearch search keep).act v r).1.result = kind? search.result := by
    rw [act_perform_bind, hsearch]
    dsimp only
    rw [Session.replySearch]
    cases search.result with
    | error e => rfl
    | ok a =>
      obtain ⟨o, w, hkept⟩ := hkeep a v (x.run r).source
      dsimp only
      rw [act_bind_of_silent _ hkept]
      rfl
  rw [htold, houtcome, hevents]

/-- The reading of master keys. -/
theorem logsAsTold_masterKeys (field : Option Secret) (key : Secret) :
    LogsAsTold (MasterKeys.readSealed field key >>= fun keys =>
        return .ofValue (.list (keys.map .sealed)))
      (perform (MasterKeys.decrypt field key).attempt >>= fun outcome =>
        return MasterKeys.subject field (MasterKeys.count outcome)) := by
  intro v r
  have htold := subjectTold_perform (x := (MasterKeys.decrypt field key).attempt) (r := r) rfl
    (fun outcome => MasterKeys.subject field (MasterKeys.count outcome)) v
  rw [htold, events_bind_of_silent, act_bind, MasterKeys.act_readSealed]
  -- the keys in their buffers are as many as the texts in them
  have hevents := MasterKeys.events_decrypt field key r
  cases hresult : ((MasterKeys.decrypt field key).run r).result with
  | error e =>
    rw [hresult] at hevents
    exact hevents
  | ok texts =>
    rw [hresult] at hevents
    exact hevents

/-- The reading of a private key. -/
theorem logsAsTold_privateKey (field : Option Secret) (key : Secret) :
    LogsAsTold (PrivateKey.readSealed field key >>= fun s => return .ofValue (.sealed s))
      (return PrivateKey.subject field) := by
  obtain h | ⟨f, rfl, hf⟩ := Secret.cases_of_field field
  · rw [PrivateKey.readSealed_of_empty h, PrivateKey.subject_of_empty h]
    exact logsAsTold_nothing _
  · rw [PrivateKey.readSealed_some hf, PrivateKey.subject_some hf, bind_assoc]
    exact logsAsTold_perform (Blob.logsAs_decryptText f key) (Blob.isSteady_fieldDecryptionOf _) _

end Vaulted

namespace Session

open Vaulted (LogsAsTold LogsNothing Has has_bind)

def BlobOperation.subject (names : Names) : BlobOperation → Vaulted Subject
  | encrypt data key version salt => do
    let text ← data.evalBytes names
    let _ ← key.evalSecret names
    let requested ← evalVersion names (some version)
    let _ ← evalBytes? names salt
    return Blob.encryptionOf text.length requested
  | decrypt data key => do
    let blob ← data.evalBytes names
    let _ ← key.evalSecret names
    return Blob.decryptionOf blob
  | encryptText data key version => do
    let text ← data.evalSecret names
    let _ ← key.evalSecret names
    let requested ← evalVersion names (some version)
    return Blob.encryptionOf text.content.length requested
  | decryptText data key => do
    let field ← data.evalSecret names
    let _ ← key.evalSecret names
    return Blob.fieldDecryptionOf field.content
  | decryptWithAny data keys => do
    let blob ← data.evalBytes names
    let ks ← keys.evalSecrets names
    let search ← Vaulted.perform (Blob.decryptWithAny blob ks)
    return .search blob.length (Blob.sniff blob).toOption search.tried
  | decryptTextWithAny data keys => do
    let field ← data.evalSecret names
    let ks ← keys.evalSecrets names
    let search ← Vaulted.perform (Blob.decryptTextWithAny field ks)
    return Blob.fieldSearchOf field.content search.tried
  | decryptMasterKeys data key => do
    let field ← evalSecret? names data
    let k ← key.evalSecret names
    let keys ← Vaulted.perform (MasterKeys.decrypt field k).attempt
    return MasterKeys.subject field (MasterKeys.count keys)
  | encryptMasterKeys keys key version => do
    let ks ← keys.evalSecrets names
    let _ ← key.evalSecret names
    let requested ← evalVersion names version
    return MasterKeys.encryptionOf ks requested
  | decryptPrivateKey data key => do
    let field ← evalSecret? names data
    let _ ← key.evalSecret names
    return PrivateKey.subject field
  | newLinkKey key version => do
    let _ ← key.evalSecret names
    let requested ← evalVersion names version
    return Blob.encryptionOf 32 requested
  | _ => return .nothing

theorem BlobOperation.logsAsTold (names : Names) (o : BlobOperation) :
    LogsAsTold (o.run names) (o.subject names) := by
  cases o with
  | encrypt data key version salt =>
    refine .after fun text => .after fun k => .after fun requested => .after fun s => ?_
    exact Vaulted.logsAsTold_perform (Blob.logsAs_encrypt text k requested s)
      (Blob.isSteady_encryptionOf _ _) _
  | decrypt data key =>
    refine .after fun blob => .after fun k => ?_
    exact Vaulted.logsAsTold_perform (Blob.logsAs_decrypt blob k) (Blob.isSteady_decryptionOf _) _
  | encryptText data key version =>
    refine .after fun text => .after fun k => .after fun requested => ?_
    exact Vaulted.logsAsTold_perform (Blob.logsAs_encryptText text k requested)
      (Blob.isSteady_encryptionOf _ _) _
  | decryptText data key =>
    refine .after fun field => .after fun k => ?_
    exact Vaulted.logsAsTold_perform (Blob.logsAs_decryptText field k)
      (Blob.isSteady_fieldDecryptionOf _) _
  | decryptWithAny data keys =>
    refine .after fun blob => .after fun ks => ?_
    exact Vaulted.logsAsTold_search (Blob.events_decryptWithAny blob ks)
      fun b v r => ⟨_, _, rfl⟩
  | decryptTextWithAny data keys =>
    refine .after fun field => .after fun ks => ?_
    exact Vaulted.logsAsTold_search (Blob.events_decryptTextWithAny field ks)
      fun s v r => ⟨_, _, rfl⟩
  | decryptMasterKeys data key =>
    refine .after fun field => .after fun k => ?_
    exact Vaulted.logsAsTold_masterKeys field k
  | encryptMasterKeys keys key version =>
    refine .after fun ks => .after fun k => .after fun requested => ?_
    exact Vaulted.logsAsTold_perform (MasterKeys.logsAs_encrypt ks k requested)
      (MasterKeys.isSteady_encryptionOf _ _) _
  | decryptPrivateKey data key =>
    refine .after fun field => .after fun k => ?_
    exact Vaulted.logsAsTold_privateKey field k
  | newLinkKey key version =>
    refine .after fun k => .after fun requested => ?_
    exact Vaulted.logsAsTold_perform (Link.logsAs_newKey k requested)
      (Blob.isSteady_encryptionOf _ _) _
  | _ =>
    unfold run
    exact Vaulted.logsAsTold_nothing _

def CredentialOperation.subject (names : Names) : CredentialOperation → Vaulted Subject
  | forVersion version password salt => do
    let x ← version.evalValue names
    let requested ← Vaulted.inspect fun v => .ok (x.requestedAuthVersion v)
    let _ ← password.evalSecret names
    let _ ← evalOption names salt
    return .derivation requested.shown
  | _ => return .nothing

theorem CredentialOperation.logsAsTold (names : Names) (o : CredentialOperation) :
    LogsAsTold (o.run names) (o.subject names) := by
  cases o with
  | forVersion version password salt =>
    refine .after fun x => .after fun requested => .after fun p => .after fun s => ?_
    refine .after (e := get) (g := fun _ => return .derivation requested.shown) fun v => ?_
    exact Vaulted.logsAsTold_perform (Credentials.logsAs_forVersion requested p (s.toSecret? v))
      (fun _ => rfl) _
  | _ =>
    unfold run
    exact Vaulted.logsAsTold_nothing _

instance (apiKey keyMetadata metadata parent : Value) (linkType : ItemKind)
    (uuid linkUuid : Value) (button : DownloadButton) (expiration : Expiration) :
    Has LogsNothing
      (LinkAdd.ofParts apiKey keyMetadata metadata parent linkType uuid linkUuid button
        expiration) := by
  unfold LinkAdd.ofParts
  cases linkUuid <;> infer_instance

instance (apiKey uuid : Value) (button : DownloadButton) (expiration : Expiration)
    (password : Option Secret) :
    Has LogsNothing (LinkEdit.new apiKey uuid button expiration password) := by
  unfold LinkEdit.new
  infer_instance

/-- What the reading of a link's key is about. -/
def linkKeySubject (v : Vault) (m : LinkStatus) (keys : List Secret) : Vaulted Subject := do
  match m.searchedField? v keys with
  | some field =>
    let search ← Vaulted.perform (Blob.decryptTextWithAny field keys)
    return Blob.fieldSearchOf field.content search.tried
  | none => return .nothing

theorem logsAsTold_linkKey (v : Vault) (m : LinkStatus) (keys : List Secret) :
    LogsAsTold (do
        match ← Vaulted.perform (m.decryptLinkKey v keys) with
        | none => return .ofValue .none
        | some key => Reply.keepText key)
      (linkKeySubject v m keys) := by
  have hrest (key : Option String) : Has LogsNothing (match key with
      | none => return .ofValue .none
      | some key => Reply.keepText key : Vaulted Reply) := by
    cases key <;> infer_instance
  have hreply (key : Option String) (w : Vault) (r : RandomSource) :
      ∃ o, ((match key with
        | none => return .ofValue .none
        | some key => Reply.keepText key : Vaulted Reply).act w r).1.result = .ok (.object o) := by
    cases key with
    | none => exact ⟨_, rfl⟩
    | some key => exact ⟨_, rfl⟩
  refine Vaulted.logsAsTold_of_events fun w r => ?_
  rw [Vaulted.outcomeOf_bind hreply, linkKeySubject]
  -- without a field or without keys nothing is decrypted
  cases hfield : m.searchedField? v keys with
  | none => exact (LinkStatus.decryptLinkKey_silent hfield).silent r
  | some field =>
    obtain ⟨search, hsearch, hevents⟩ := Blob.events_decryptTextWithAny field keys r
    dsimp only
    rw [Vaulted.subjectTold_perform hsearch (fun search => Blob.fieldSearchOf field.content
      search.tried), LinkStatus.decryptLinkKey_eq hfield, Action.events_bind, Action.result_bind,
      hsearch, hevents]
    have hpassed (r' : RandomSource) :
        ((some <$> Action.ofExcept search.result).run r').events = [] ∧
          kind? ((some <$> Action.ofExcept search.result).run r').result = kind? search.result := by
      cases search.result <;> exact ⟨rfl, rfl⟩
    dsimp only
    rw [(hpassed _).1, (hpassed _).2, List.append_nil]

def ModelOperation.subject (names : Names) : ModelOperation → Vaulted Subject
  | deriveCredentials model password => do
    match ← model.evalModel names with
    | .authInfo m =>
      let _ ← password.evalSecret names
      let v ← get
      return .derivation (m.authVersion.requestedAuthVersion v).shown
    | _ => return .nothing
  | responseMasterKeys model key => do
    match ← model.evalModel names with
    | .loginResponse m =>
      let k ← key.evalSecret names
      let field ← Vaulted.inspect fun v => m.masterKeys.toSecret? v
      let keys ← Vaulted.perform (MasterKeys.decrypt field k).attempt
      return MasterKeys.subject field (MasterKeys.count keys)
    | _ => return .nothing
  | responsePrivateKey model key => do
    match ← model.evalModel names with
    | .loginResponse m =>
      let _ ← key.evalSecret names
      let field ← Vaulted.inspect fun v => m.privateKey.toSecret? v
      return PrivateKey.subject field
    | _ => return .nothing
  | newLinkAdd apiKey uuid metadata parent linkType key linkKey version => do
    let _ ← evalChoice names linkType ItemKind.file
    let _ ← apiKey.evalValue names
    let _ ← uuid.evalValue names
    let _ ← metadata.evalValue names
    let _ ← parent.evalValue names
    let _ ← key.evalSecret names
    let given ← evalGivenSecret names linkKey
    let requested ← evalVersion names version
    return Blob.encryptionOf (LinkAdd.keyLength given) requested
  | readLinkKey model keys => do
    match ← model.evalModel names with
    | .linkStatus m =>
      let ks ← keys.evalSecrets names
      let v ← get
      linkKeySubject v m ks
    | _ => return .nothing
  | _ => return .nothing

theorem ModelOperation.logsAsTold (names : Names) (o : ModelOperation) :
    LogsAsTold (o.run names) (o.subject names) := by
  cases o with
  | deriveCredentials model password =>
    refine .after fun m => ?_
    cases m with
    | authInfo m =>
      refine .after fun p => ?_
      rw [AuthInfo.derive, bind_assoc]
      refine .after fun v => ?_
      rw [bind_assoc]
      exact Vaulted.logsAsTold_perform (Credentials.logsAs_forVersion _ p _) (fun _ => rfl) _
    | _ => exact Vaulted.logsAsTold_nothing _
  | responseMasterKeys model key =>
    refine .after fun m => ?_
    cases m with
    | loginResponse m =>
      refine .after fun k => ?_
      rw [LoginResponse.decryptMasterKeys, bind_assoc]
      refine .after fun field => ?_
      exact Vaulted.logsAsTold_masterKeys field k
    | _ => exact Vaulted.logsAsTold_nothing _
  | responsePrivateKey model key =>
    refine .after fun m => ?_
    cases m with
    | loginResponse m =>
      refine .after fun k => ?_
      rw [LoginResponse.decryptPrivateKey, bind_assoc]
      refine .after fun field => ?_
      exact Vaulted.logsAsTold_privateKey field k
    | _ => exact Vaulted.logsAsTold_nothing _
  | newLinkAdd apiKey uuid metadata parent linkType key linkKey version =>
    refine .after fun kind => .after fun api => .after fun item => .after fun data =>
      .after fun folder => .after fun masterKey => .after fun given => .after fun requested => ?_
    rw [LinkAdd.new, bind_assoc]
    exact Vaulted.logsAsTold_perform (LinkAdd.logsAs_keyField given masterKey requested)
      (Blob.isSteady_encryptionOf _ requested) _
  | readLinkKey model keys =>
    refine .after fun m => ?_
    cases m with
    | linkStatus m =>
      refine .after fun ks => .after fun v => ?_
      exact logsAsTold_linkKey v m ks
    | _ => exact Vaulted.logsAsTold_nothing _
  | hasPassword model => exact Vaulted.logsAsTold_nothing _
  | linkAddOf apiKey keyMetadata metadata parent linkType uuid linkUuid button expiration =>
    have hsilent : Has LogsNothing ((linkAddOf apiKey keyMetadata metadata parent linkType uuid
        linkUuid button expiration).run names) :=
      -- too many arguments for one search
      has_bind fun _ => has_bind fun _ => has_bind fun _ => has_bind fun _ => has_bind fun _ =>
        has_bind fun _ => inferInstance
    exact Vaulted.logsAsTold_nothing _
  | _ =>
    unfold run
    exact Vaulted.logsAsTold_nothing _

/-- What an operation is about. A command line has a log of its own. -/
def Operation.subject (names : Names) : Operation → Vaulted Subject
  | blob o => o.subject names
  | credential o => o.subject names
  | model o => o.subject names
  | key _ | secret _ _ | equal _ _ | settings _ | failure _ _ | command _ _ _ _ => return .nothing

instance (names : Names) (query : SecretQuery) (value : Arg) :
    Has LogsNothing (query.run names value) := by
  unfold SecretQuery.run
  refine has_bind fun o => ?_
  split <;> infer_instance

instance (names : Names) (o : KeyOperation) : Has LogsNothing (o.run names) := by
  cases o <;> (unfold KeyOperation.run; infer_instance)

instance (separators : Cli.Separators) (time : String) (args : List Cli.RawText)
    (env : Settings.Environment) (answers : List Cli.RawText) :
    Silent (Cli.run separators time args env answers) := by
  unfold Cli.run
  cases Cli.Invocation.ofArguments separators args with
  | error stop => infer_instance
  | ok i =>
    dsimp only
    cases Settings.ofEnvironment env with
    | error e => infer_instance
    | ok settings =>
      have hrun : Silent (Cli.runWith time settings i answers) := by
        unfold Cli.runWith
        dsimp only
        cases i.command.secret with
        | inl secret => infer_instance
        | inr question => cases answers <;> infer_instance
      infer_instance

theorem Operation.logsAsTold (time : String) (names : Names) (o : Operation) :
    LogsAsTold (o.run time names) (o.subject names) := by
  cases o with
  | blob o => exact o.logsAsTold names
  | credential o => exact o.logsAsTold names
  | model o => exact o.logsAsTold names
  | key o => exact Vaulted.logsAsTold_nothing (o.run names)
  | secret query value => exact Vaulted.logsAsTold_nothing (query.run names value)
  | failure kind arguments =>
    have hsilent : Has LogsNothing ((Operation.failure kind arguments).run time names) :=
      has_bind fun x => by cases x <;> infer_instance
    exact Vaulted.logsAsTold_nothing _
  | equal first second | settings env | command separators arguments answers env =>
    unfold run
    exact Vaulted.logsAsTold_nothing _

end Session

end SealedMetadata
