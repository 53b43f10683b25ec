import SealedMetadata.Proofs.Session.Parts
import SealedMetadata.Proofs.Session.Vaulted

/-!
The random bytes that the operations of a session draw. What an operation will draw is told by an
account of it, which reads the same arguments and then names a number instead of carrying the
operation out. Most operations draw nothing.
-/

namespace SealedMetadata

open SealedMetadata.Action (Draws Quiet)

namespace Vaulted

variable {α β : Type}

/-- An operation draws the next `n` bytes in a vault. What it comes to and the vault that it leaves
depend on these alone. -/
def Draws (x : Vaulted α) (v : Vault) (n : Nat) : Prop :=
  ∀ r r' : RandomSource, r'.peek n = r.peek n →
    x.act v r' = (⟨(x.act v r).1.result, (x.act v r).1.events, r'.advance n⟩, x.left v r)

/-- An operation that draws nothing, whatever is in the vault. -/
def DrawsNothing (α : Type) (x : Vaulted α) : Prop := ∀ v, x.Draws v 0

section Rules

variable {x : Vaulted α} {f : α → Vaulted β} {v : Vault} {n : Nat}

theorem draws_perform {x : Action α} (h : x.Draws n) (v : Vault) : (perform x).Draws v n := by
  intro r r' hpeek
  rw [act_perform, act_perform, h r r' hpeek]
  rfl

/-- What follows an action that never fails draws behind it. -/
theorem draws_perform_bind {x : Action α} {m : Nat} (hx : x.Draws m) (hok : x.Succeeds)
    (hf : ∀ a, (f a).Draws v n) : (perform x >>= f).Draws v (m + n) := by
  intro r r' hpeek
  obtain ⟨hfirst, hrest⟩ := RandomSource.peek_eq_of_add hpeek
  obtain ⟨a, ha⟩ := hok r
  have hnext := hf a _ _ hrest
  rw [left, act_perform_bind, act_perform_bind, hx r r' hfirst, hx.source r, ha]
  dsimp only
  rw [hnext, RandomSource.advance_advance]
  rfl

/-- What follows an action that fails is not reached. -/
theorem draws_perform_bind_of_fails {x : Action α} (hx : x.Draws n) (hfails : x.Fails)
    (f : α → Vaulted β) (v : Vault) : (perform x >>= f).Draws v n := by
  intro r r' hpeek
  obtain ⟨e, he⟩ := hfails r
  rw [left, act_perform_bind, act_perform_bind, hx r r' hpeek, he]

theorem Draws.of_act_eq {w : Vault} (hx : x.Draws w n) {y : Vaulted α}
    (h : ∀ r, y.act v r = x.act w r) : y.Draws v n := by
  intro r r' hpeek
  rw [left, h r, h r', hx r r' hpeek]
  rfl

theorem Draws.left_eq (hx : x.Draws v n) {r r' : RandomSource} (hpeek : r'.peek n = r.peek n) :
    x.left v r' = x.left v r := by
  rw [left, hx r r' hpeek]

/-- What draws nothing after an operation adds nothing to its bytes. -/
theorem Draws.bind_nothing (hx : x.Draws v n) (hf : ∀ a, DrawsNothing β (f a)) :
    (x >>= f).Draws v n := by
  intro r r' hpeek
  have hsource := congrArg (fun o => o.1.source) (hx r r rfl)
  rw [left, act_bind, act_bind, hx.left_eq hpeek, hx r r' hpeek]
  cases (x.act v r).1.result with
  | error e => rfl
  | ok a =>
    dsimp only at hsource ⊢
    rw [hf a (x.left v r) (x.act v r).1.source (r'.advance n) rfl]
    rfl

/-- An operation that draws so many bytes does so as an action. -/
theorem Draws.run (hx : x.Draws v n) : (x.run v).Draws n := by
  intro r r' hpeek
  rw [run_run, run_run, hx.left_eq hpeek, hx r r' hpeek]

end Rules

instance : Compositional DrawsNothing where
  pure _ _ _ _ _ := rfl
  bind hx hf v := (hx v).bind_nothing hf
  get _ _ _ _ := rfl
  quiet _ hx v := draws_perform hx.draws v
  keep _ _ _ _ _ _ := rfl

instance (s : Sealed) : Has DrawsNothing (wipe s) := ⟨fun _ _ _ _ => rfl⟩

instance (c : SealedCredentials) : Has DrawsNothing c.wipe := ⟨fun _ _ _ _ => rfl⟩

theorem drawsNothing_ensuring {x : Vaulted α} (hx : DrawsNothing α x) (change : Vault → Vault) :
    DrawsNothing α (x.ensuring change) := by
  intro v r r' hpeek
  rw [left, act_ensuring, act_ensuring, (hx v).left_eq hpeek, hx v r r' hpeek]

instance (s : Sealed) (x : Vaulted α) [hx : Has DrawsNothing x] : Has DrawsNothing (within s x) :=
  ⟨drawsNothing_ensuring hx.holds _⟩

instance (c : SealedCredentials) (x : Vaulted α) [hx : Has DrawsNothing x] :
    Has DrawsNothing (c.within x) :=
  ⟨drawsNothing_ensuring hx.holds _⟩

/-- The number that an account comes to, zero if it fails. -/
def told (account : Vaulted Nat) (v : Vault) (r : RandomSource) : Nat :=
  match (account.act v r).1.result with
  | .ok n => n
  | .error _ => 0

/-- An operation draws as many bytes as its account tells. -/
def DrawsAsTold (x : Vaulted α) (account : Vaulted Nat) : Prop :=
  ∀ v r, x.Draws v (told account v r)

theorem drawsAsTold_of_draws {x : Vaulted α} {count : Vault → Nat}
    (h : ∀ v, x.Draws v (count v)) :
    DrawsAsTold x (do let v ← get; return count v) :=
  fun v _ => h v

theorem drawsAsTold_const {x : Vaulted α} {n : Nat} (h : ∀ v, x.Draws v n) :
    DrawsAsTold x (return n) :=
  fun v _ => h v

theorem drawsAsTold_zero (x : Vaulted α) [hx : Has DrawsNothing x] :
    DrawsAsTold x (return 0) :=
  drawsAsTold_const hx.holds

theorem drawsAsTold_perform {x : Action α} {n : Nat} (h : x.Draws n) :
    DrawsAsTold (perform x) (return n) :=
  drawsAsTold_const (draws_perform h)

/-- What draws nothing after an operation leaves the account as it is. -/
theorem DrawsAsTold.bind_quiet {x : Vaulted α} {account : Vaulted Nat}
    (h : DrawsAsTold x account) (f : α → Vaulted β) [hf : ∀ a, Has DrawsNothing (f a)] :
    DrawsAsTold (x >>= f) account :=
  fun v r => (h v r).bind_nothing fun a => (hf a).holds

/-- An operation and its account read the same argument and go on with its value. -/
theorem DrawsAsTold.after {e : Vaulted α} [he : Has DrawsNothing e] {f : α → Vaulted β}
    {g : α → Vaulted Nat} (h : ∀ a, DrawsAsTold (f a) (g a)) :
    DrawsAsTold (e >>= f) (e >>= g) := by
  intro v r
  -- the argument has the same value under each source
  have hread (r₁ : RandomSource) : e.act v r₁ =
      (⟨(e.act v r).1.result, (e.act v r).1.events, r₁⟩, e.left v r) := he.holds v r r₁ rfl
  cases hresult : (e.act v r).1.result with
  | error err =>
    have htold : told (e >>= g) v r = 0 := by
      rw [told, act_bind, hresult]
    have hact (r₁ : RandomSource) : (e >>= f).act v r₁ =
        (⟨.error err, (e.act v r).1.events, r₁⟩, e.left v r) := by
      rw [act_bind_of_error f (hread r₁ |>.trans (by rw [hresult]))]
    rw [htold]
    intro r₁ r₂ _
    rw [left, hact r₁, hact r₂]
    rfl
  | ok a =>
    have htold : told (e >>= g) v r = told (g a) (e.left v r) (e.act v r).1.source := by
      rw [told, act_bind, hresult]
      rfl
    have hact (r₁ : RandomSource) : (e >>= f).act v r₁ =
        (⟨((f a).act (e.left v r) r₁).1.result,
          (e.act v r).1.events ++ ((f a).act (e.left v r) r₁).1.events,
          ((f a).act (e.left v r) r₁).1.source⟩, (f a).left (e.left v r) r₁) := by
      rw [act_bind, left, hread r₁, hresult]
      rfl
    rw [htold]
    intro r₁ r₂ hpeek
    have hleft (r₁ : RandomSource) : (e >>= f).left v r₁ = (f a).left (e.left v r) r₁ := by
      rw [left, hact r₁]
    have hrest := h a (e.left v r) (e.act v r).1.source
    rw [hleft, hact r₁, hact r₂, hrest r₁ r₂ hpeek, hrest.left_eq hpeek]

end Vaulted

namespace LinkAdd

/-- The bytes that a link's identifier draws: none if it is given, or if the request fails at its
service key before. -/
def idDrawn (v : Vault) (apiKey linkUuid : Value) : Nat :=
  match linkUuid, apiKey.sealable v with
  | .none, .ok _ => 16
  | _, _ => 0

theorem draws_ofParts (apiKey keyMetadata metadata parent : Value) (linkType : ItemKind)
    (uuid linkUuid : Value) (button : DownloadButton) (expiration : Expiration) (v : Vault) :
    (ofParts apiKey keyMetadata metadata parent linkType uuid linkUuid button expiration).Draws v
      (idDrawn v apiKey linkUuid) := by
  cases linkUuid with
  | none =>
    cases hkey : apiKey.sealable v with
    | error e =>
      have hact (r : RandomSource) : (ofParts apiKey keyMetadata metadata parent linkType uuid
          .none button expiration).act v r = (⟨.error e, [], r⟩, v) := by
        rw [ofParts, Vaulted.act_inspect_bind, hkey]
      simp only [idDrawn, hkey]
      exact (Vaulted.draws_perform (Action.draws_zero (Action.fail e)) v).of_act_eq hact
    | ok content =>
      have hact (r : RandomSource) : (ofParts apiKey keyMetadata metadata parent linkType uuid
          .none button expiration).act v r = (Vaulted.perform Uuid.draw >>= fun id =>
            pure (⟨(v.add .text content).1, button, expiration, keyMetadata, .uuid id, metadata,
              parent, linkType, uuid⟩ : LinkAdd)).act (v.add .text content).2 r := by
        rw [ofParts, Vaulted.act_inspect_bind, hkey]
        rfl
      simp only [idDrawn, hkey]
      refine Vaulted.Draws.of_act_eq ?_ hact
      exact (Vaulted.draws_perform Uuid.draws_draw _).bind_nothing fun id => Vaulted.Has.holds
  | _ =>
    unfold ofParts
    exact Vaulted.Has.holds (P := Vaulted.DrawsNothing) v

/-- The bytes that a new link draws: those of its key and its encryption, and those of its
identifier if the request gets so far. -/
def newDrawn (v : Vault) (apiKey : Value) (linkKey : Option Secret)
    (version : RequestedVersion) : Nat :=
  keyDrawn linkKey version +
    match Version.ofRequest version with
    | .ok _ => idDrawn v apiKey .none
    | .error _ => 0

theorem draws_new (apiKey uuid metadata parent : Value) (linkType : ItemKind) (masterKey : Secret)
    (linkKey : Option Secret) (version : RequestedVersion) (v : Vault) :
    (new apiKey uuid metadata parent linkType masterKey linkKey (some version)).Draws v
      (newDrawn v apiKey linkKey version) := by
  have hfield := draws_keyField linkKey masterKey version
  rw [new, newDrawn]
  cases hversion : Version.ofRequest version with
  | error e =>
    exact Vaulted.draws_perform_bind_of_fails hfield (fails_keyField hversion linkKey masterKey) _ v
  | ok w =>
    refine Vaulted.draws_perform_bind hfield (succeeds_keyField hversion linkKey masterKey)
      fun field => ?_
    exact draws_ofParts apiKey (.text field) metadata parent linkType uuid .none .enable .never v

end LinkAdd

/-- The salt of a changed link's password is drawn before the service key is looked at. -/
theorem LinkEdit.draws_new (apiKey uuid : Value) (button : DownloadButton)
    (expiration : Expiration) (password : Option Secret) (v : Vault) :
    (new apiKey uuid button expiration password).Draws v 32 := by
  have hhash := Vaulted.drawsAsTold_perform
    (Link.draws_hashPassword (password.getD (.text Link.noPassword)))
  exact hhash.bind_quiet _ v (.cycle [])

namespace Session

open Vaulted (Has has_bind DrawsNothing DrawsAsTold drawsAsTold_perform drawsAsTold_zero)

/-- The bytes that an operation on plain bytes draws. -/
def KeyOperation.drawn : KeyOperation → Nat
  | randomBytes length => (length.getD 32).toNat
  | randomAlphanumeric length => length.toNat
  | _ => 0

/-- The account of an operation on blobs and fields. -/
def BlobOperation.account (names : Names) : BlobOperation → Vaulted Nat
  | encryptSalted data password salt => do
    let _ ← data.evalBytes names
    let _ ← password.evalSecret names
    let s ← evalBytes? names salt
    return Blob.Salted.drawn s
  | encryptAuthenticated data password => do
    let _ ← data.evalBytes names
    let _ ← password.evalSecret names
    return Blob.Authenticated.nonceLength
  | encrypt data key version salt => do
    let _ ← data.evalBytes names
    let _ ← key.evalSecret names
    let requested ← evalVersion names (some version)
    let s ← evalBytes? names salt
    return Blob.drawn requested s
  | encryptText data key version => do
    let _ ← data.evalSecret names
    let _ ← key.evalSecret names
    let requested ← evalVersion names (some version)
    return Blob.drawn requested none
  | encryptMasterKeys keys key version => do
    let ks ← keys.evalSecrets names
    let _ ← key.evalSecret names
    let requested ← evalVersion names version
    return MasterKeys.drawn ks requested
  | newLinkKey key version => do
    let _ ← key.evalSecret names
    let requested ← evalVersion names version
    return 32 + Blob.drawn requested none
  | hashLinkPassword password => do
    let _ ← password.evalSecret names
    return 32
  | _ => return 0

/-- The account of an operation on payloads. -/
def ModelOperation.account (names : Names) : ModelOperation → Vaulted Nat
  | newLinkEdit apiKey uuid button expiration password => do
    let _ ← evalLinkChoices names button expiration
    let _ ← apiKey.evalValue names
    let _ ← uuid.evalValue names
    let _ ← evalGivenSecret names password
    return 32
  | newLinkAdd apiKey uuid metadata parent linkType key linkKey version => do
    let _ ← evalChoice names linkType ItemKind.file
    let api ← apiKey.evalValue names
    let _ ← uuid.evalValue names
    let _ ← metadata.evalValue names
    let _ ← parent.evalValue names
    let _ ← key.evalSecret names
    let given ← evalGivenSecret names linkKey
    let requested ← evalVersion names version
    let v ← get
    return LinkAdd.newDrawn v api given requested
  | linkAddOf apiKey keyMetadata metadata parent linkType uuid linkUuid button expiration => do
    let _ ← evalLinkChoices names button expiration
    let _ ← evalChoice names linkType ItemKind.file
    let api ← apiKey.evalValue names
    let _ ← keyMetadata.evalValue names
    let _ ← metadata.evalValue names
    let _ ← parent.evalValue names
    let _ ← uuid.evalValue names
    let link ← evalOption names linkUuid
    let v ← get
    return LinkAdd.idDrawn v api link
  | _ => return 0

/-- The account of an operation. -/
def Operation.account (names : Names) : Operation → Vaulted Nat
  | key o => return o.drawn
  | blob o => o.account names
  | model o => o.account names
  | command separators arguments answers env => return Cli.drawn separators arguments env answers
  | _ => return 0

theorem KeyOperation.drawsAsTold (names : Names) (o : KeyOperation) :
    DrawsAsTold (o.run names) (return o.drawn) := by
  cases o with
  | randomBytes length =>
    exact (drawsAsTold_perform (Action.draws_draw (length.getD 32).toNat)).bind_quiet _
  | randomAlphanumeric length =>
    exact (drawsAsTold_perform (Alphanumeric.draws_drawText length.toNat)).bind_quiet _
  | _ =>
    unfold run
    exact drawsAsTold_zero _

theorem BlobOperation.drawsAsTold (names : Names) (o : BlobOperation) :
    DrawsAsTold (o.run names) (o.account names) := by
  cases o with
  | encryptSalted data password salt =>
    refine .after fun text => .after fun key => .after fun s => ?_
    exact (drawsAsTold_perform (Blob.Salted.draws_encryptUnread (.ok key) s text)).bind_quiet _
  | encryptAuthenticated data password =>
    refine .after fun text => .after fun key => ?_
    exact (drawsAsTold_perform (Blob.Authenticated.draws_encryptUnread (.ok key) text)).bind_quiet _
  | encrypt data key version salt =>
    refine .after fun text => .after fun k => .after fun requested => .after fun s => ?_
    exact (drawsAsTold_perform (Blob.draws_encrypt text k requested s)).bind_quiet _
  | encryptText data key version =>
    refine .after fun text => .after fun k => .after fun requested => ?_
    exact (drawsAsTold_perform (Blob.draws_encryptText text k requested)).bind_quiet _
  | encryptMasterKeys keys key version =>
    refine .after fun ks => .after fun k => .after fun requested => ?_
    exact (drawsAsTold_perform (MasterKeys.draws_encrypt ks k requested)).bind_quiet _
  | newLinkKey key version =>
    refine .after fun k => .after fun requested => ?_
    exact (drawsAsTold_perform (Link.draws_newKey k requested)).bind_quiet _
  | hashLinkPassword password =>
    refine .after fun p => ?_
    exact (drawsAsTold_perform (Link.draws_hashPassword p)).bind_quiet _
  | _ =>
    unfold run
    exact drawsAsTold_zero _

instance (names : Names) (query : SecretQuery) (value : Arg) :
    Has DrawsNothing (query.run names value) := by
  unfold SecretQuery.run
  refine has_bind fun o => ?_
  split <;> infer_instance

instance (names : Names) (o : CredentialOperation) : Has DrawsNothing (o.run names) := by
  cases o <;> (unfold CredentialOperation.run; infer_instance)

theorem ModelOperation.drawsAsTold (names : Names) (o : ModelOperation) :
    DrawsAsTold (o.run names) (o.account names) := by
  cases o with
  | newLinkEdit apiKey uuid button expiration password =>
    refine .after fun choices => .after fun key => .after fun item => .after fun p => ?_
    exact (Vaulted.drawsAsTold_const
      (LinkEdit.draws_new key item choices.1 choices.2 p)).bind_quiet _
  | newLinkAdd apiKey uuid metadata parent linkType key linkKey version =>
    refine .after fun kind => .after fun api => .after fun item => .after fun data =>
      .after fun folder => .after fun masterKey => .after fun given => .after fun requested => ?_
    exact (Vaulted.drawsAsTold_of_draws
      (LinkAdd.draws_new api item data folder kind masterKey given requested)).bind_quiet _
  | linkAddOf apiKey keyMetadata metadata parent linkType uuid linkUuid button expiration =>
    refine .after fun choices => .after fun kind => .after fun api => .after fun field =>
      .after fun data => .after fun folder => .after fun item => .after fun link => ?_
    exact (Vaulted.drawsAsTold_of_draws (LinkAdd.draws_ofParts api field data folder kind item link
      choices.1 choices.2)).bind_quiet _
  | deriveCredentials _ _ | responseMasterKeys _ _ | responsePrivateKey _ _ | hasPassword _
  | readLinkKey _ _ => exact drawsAsTold_zero _
  | _ =>
    unfold run
    exact drawsAsTold_zero _

theorem Operation.drawsAsTold (time : String) (names : Names) (o : Operation) :
    DrawsAsTold (o.run time names) (o.account names) := by
  cases o with
  | key o => exact o.drawsAsTold names
  | blob o => exact o.drawsAsTold names
  | model o => exact o.drawsAsTold names
  | secret query value => exact drawsAsTold_zero (query.run names value)
  | credential o => exact drawsAsTold_zero (o.run names)
  | command separators arguments answers env =>
    exact (drawsAsTold_perform (Cli.draws_run separators time arguments env answers)).bind_quiet _
  | failure kind arguments =>
    have hquiet : Has DrawsNothing ((Operation.failure kind arguments).run time names) :=
      has_bind fun x => by cases x <;> infer_instance
    exact drawsAsTold_zero _
  | equal first second | settings env =>
    unfold run
    exact drawsAsTold_zero _

end Session

end SealedMetadata
