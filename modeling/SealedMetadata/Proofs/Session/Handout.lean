import SealedMetadata.Proofs.Session.Release

/-!
What operations hand out. A sealed value that comes out of an operation has a buffer that the
operation made, unless the operation only passes on what it was given.
-/

namespace SealedMetadata

namespace Vaulted

variable {α β : Type}

/-- Each sealed value among the parts of a result is a known one, or has a buffer that was not
there before. -/
def HandsOut (known : List Sealed) (parts : α → List Sealed) (x : Vaulted α) : Prop :=
  ∀ v r a w, ((x.run v).run r).result = .ok (a, w) → ∀ s ∈ parts a,
    s ∈ known ∨ (v.buffers.size ≤ s.slot ∧ s.slot < w.buffers.size)

variable {known : List Sealed} {parts : α → List Sealed} {parts' : β → List Sealed}
  {x : Vaulted α} {f : α → Vaulted β}

theorem HandsOut.mono (h : HandsOut [] parts x) (known : List Sealed) :
    HandsOut known parts x := by
  intro v r a w hrun s hs
  rcases h v r a w hrun s hs with hnone | hnew
  · cases hnone
  · exact .inr hnew

theorem handsOut_pure {a : α} (h : parts a ⊆ known) : HandsOut known parts (pure a) := by
  intro v r b w hrun s hs
  cases hrun
  exact .inl (h hs)

theorem handsOut_keep (kind : SealedKind) (content : Bytes) :
    HandsOut [] (fun s => [s]) (keep kind content) := by
  intro v r a w hrun s hs
  cases hrun
  rw [List.mem_singleton.mp hs]
  exact .inr ⟨Nat.le_refl _, Vault.slot_add_lt v kind content⟩

/-- What the first step hands out is known to the second one. -/
theorem HandsOut.bind [Has OnlyAdds x] [∀ a, Has OnlyAdds (f a)]
    (hfirst : HandsOut known parts x) (hrest : ∀ a, HandsOut (parts a ++ known) parts' (f a)) :
    HandsOut known parts' (x >>= f) := by
  intro v r b w hrun s hs
  obtain ⟨a, u, r₁, hrun₁, hrun₂⟩ := exists_of_bind_ok hrun
  have hlow := (Has.grown hrun₁).size_le
  have hhigh := (Has.grown hrun₂).size_le
  rcases hrest a u r₁ b w hrun₂ s hs with hknown | hnew
  · rcases List.mem_append.mp hknown with hpart | hknown
    · -- what the first step made is still there at the end
      rcases hfirst v r a u hrun₁ s hpart with hknown | hnew
      · exact .inl hknown
      · exact .inr (by omega)
    · exact .inl hknown
  · exact .inr (by omega)

/-- What is new after the first step is new altogether. -/
theorem HandsOut.after [Has OnlyAdds x] (hrest : ∀ a, HandsOut known parts' (f a)) :
    HandsOut known parts' (x >>= f) := by
  intro v r b w hrun s hs
  obtain ⟨a, u, r₁, hrun₁, hrun₂⟩ := exists_of_bind_ok hrun
  have hlow := (Has.grown hrun₁).size_le
  rcases hrest a u r₁ b w hrun₂ s hs with hknown | hnew
  · exact .inl hknown
  · exact .inr (by omega)

/-- A result with the sealed parts that a step handed out. -/
theorem HandsOut.map [Has OnlyAdds x] {g : α → β} (h : HandsOut [] parts x)
    (hparts : ∀ a, parts' (g a) ⊆ parts a) :
    HandsOut [] parts' (do let a ← x; return g a) :=
  h.bind fun a => handsOut_pure (List.subset_append_of_subset_left [] (hparts a))

theorem handsOut_mapM {γ : Type} {g : γ → Vaulted Sealed} [∀ c, Has OnlyAdds (g c)]
    (h : ∀ c, HandsOut [] (fun s => [s]) (g c)) (items : List γ) :
    HandsOut [] (fun kept => kept) (items.mapM g) := by
  induction items with
  | nil =>
    rw [List.mapM_nil]
    exact handsOut_pure (List.Subset.refl _)
  | cons c items ih =>
    rw [List.mapM_cons]
    -- the rest hands out nothing but its own, whatever is known by then
    refine (h c).bind fun s => (ih.mono _).bind fun kept => handsOut_pure ?_
    intro t ht
    rcases List.mem_cons.mp ht with rfl | ht
    · exact List.mem_append_right kept (List.mem_append_left [] List.mem_cons_self)
    · exact List.mem_append_left _ ht

end Vaulted

open Vaulted (Has OnlyAdds HandsOut handsOut_keep handsOut_mapM handsOut_pure)

/-- The sealed value that a value is. -/
def Value.sealed? : Value → Option Sealed
  | .sealed s => some s
  | _ => .none

namespace Object

/-- The sealed values that are an object's own: itself or its items, the halves of credentials, and
the copy that a payload was made with. Others in it belong to whoever gave them. -/
def own : Object → List Sealed
  | value (.list items) | value (.tuple items) => items.filterMap Value.sealed?
  | value x => x.sealed?.toList
  | settings _ => []
  | credentials c => [c.masterKey, c.sentPassword]
  | model (.loginRequest m) => [m.password]
  | model (.loginResponse m) => [m.apiKey]
  | model (.linkEdit m) => [m.apiKey]
  | model (.linkAdd m) => [m.apiKey]
  | model (.authInfo _) | model (.linkStatus _) => []

end Object

section Payloads

theorem SealedCredentials.handsOut_keep (c : Credentials) :
    HandsOut [] (fun c => [c.masterKey, c.sentPassword]) (keep c) := by
  unfold keep
  refine (Vaulted.handsOut_keep _ _).bind fun masterKey =>
    ((Vaulted.handsOut_keep _ _).mono _).bind fun sentPassword => handsOut_pure ?_
  intro s hs
  rw [List.append_nil]
  exact (List.Perm.swap sentPassword masterKey []).subset hs

theorem LoginRequest.handsOut_new (email password twoFactorKey authVersion : Value) :
    HandsOut [] (fun m => [m.password]) (new email password twoFactorKey authVersion) :=
  .after fun _ => .after fun _ => (handsOut_keep _ _).map fun _ => List.Subset.refl _

theorem LoginResponse.handsOut_ofFields (data : Value) :
    HandsOut [] (fun m => [m.apiKey]) (ofFields data) :=
  .after fun _ => .after fun _ => (handsOut_keep _ _).map fun _ => List.Subset.refl _

theorem MasterKeys.handsOut_readSealed (field : Option Secret) (key : Secret) :
    HandsOut [] (fun kept => kept) (readSealed field key) := by
  rw [readSealed_eq]
  exact .after fun texts => .after fun _ => handsOut_mapM (fun _ => handsOut_keep _ _) texts

theorem PrivateKey.handsOut_readSealed (field : Option Secret) (key : Secret) :
    HandsOut [] (fun s => [s]) (readSealed field key) := by
  obtain h | ⟨f, rfl, hf⟩ := Secret.cases_of_field field
  · rw [readSealed_of_empty h]
    exact handsOut_keep _ _
  · -- the buffer of the text comes before that of the key
    rw [readSealed_some hf]
    exact .after fun _ => .after fun _ => .after fun _ => handsOut_keep _ _

theorem LoginResponse.handsOut_decryptMasterKeys (m : LoginResponse) (key : Secret) :
    HandsOut [] (fun kept => kept) (m.decryptMasterKeys key) :=
  .after fun field => MasterKeys.handsOut_readSealed field key

theorem LoginResponse.handsOut_decryptPrivateKey (m : LoginResponse) (key : Secret) :
    HandsOut [] (fun s => [s]) (m.decryptPrivateKey key) :=
  .after fun field => PrivateKey.handsOut_readSealed field key

theorem LinkEdit.handsOut_ofParts (apiKey : Value) (button : DownloadButton)
    (expiration : Expiration) (password : PasswordState) (hashed salt uuid : Value) :
    HandsOut [] (fun m => [m.apiKey])
      (ofParts apiKey button expiration password hashed salt uuid) :=
  .after fun _ => (handsOut_keep _ _).map fun _ => List.Subset.refl _

theorem LinkAdd.handsOut_ofParts (apiKey keyMetadata metadata parent : Value) (linkType : ItemKind)
    (uuid linkUuid : Value) (button : DownloadButton) (expiration : Expiration) :
    HandsOut [] (fun m => [m.apiKey])
      (ofParts apiKey keyMetadata metadata parent linkType uuid linkUuid button expiration) := by
  unfold ofParts
  cases linkUuid <;>
    exact .after fun _ => (handsOut_keep _ _).bind fun _ => .after fun _ =>
      handsOut_pure (List.Subset.refl _)

theorem LinkEdit.handsOut_new (apiKey uuid : Value) (button : DownloadButton)
    (expiration : Expiration) (password : Option Secret) :
    HandsOut [] (fun m => [m.apiKey]) (new apiKey uuid button expiration password) :=
  .after fun _ => handsOut_ofParts _ _ _ _ _ _ _

theorem LinkAdd.handsOut_new (apiKey uuid metadata parent : Value) (linkType : ItemKind)
    (masterKey : Secret) (linkKey : Option Secret) (version : Option RequestedVersion) :
    HandsOut [] (fun m => [m.apiKey])
      (new apiKey uuid metadata parent linkType masterKey linkKey version) :=
  .after fun _ => handsOut_ofParts _ _ _ _ _ _ _ _ _

theorem AuthInfo.handsOut_derive (m : AuthInfo) (password : Secret) :
    HandsOut [] (fun c => [c.masterKey, c.sentPassword]) (m.derive password) :=
  .after fun _ => .after fun c => SealedCredentials.handsOut_keep c

end Payloads

namespace Session

def Reply.own : Reply → List Sealed
  | .object o => o.own
  | .search _ (.ok o) => o.own
  | .search _ (.error _) | .description _ | .report _ => []

/-- An operation whose replies have no sealed values of their own. -/
class Ownless (x : Vaulted Reply) : Prop where
  own_eq_nil : ∀ v r reply w, ((x.run v).run r).result = .ok (reply, w) → reply.own = []

theorem Ownless.handsOut {x : Vaulted Reply} (h : Ownless x) : HandsOut [] Reply.own x := by
  intro v r reply w hrun s hs
  rw [h.own_eq_nil v r reply w hrun] at hs
  cases hs

theorem ownless_pure {reply : Reply} (h : reply.own = []) : Ownless (pure reply) where
  own_eq_nil v r b w hrun := by
    cases hrun
    exact h

section Ownless

instance {α : Type} (x : Vaulted α) (f : α → Vaulted Reply) [hf : ∀ a, Ownless (f a)] :
    Ownless (x >>= f) where
  own_eq_nil v r reply w hrun := by
    obtain ⟨a, u, r₁, -, hrest⟩ := Vaulted.exists_of_bind_ok hrun
    exact (hf a).own_eq_nil u r₁ reply w hrest

instance (e : Failure) : Ownless (Vaulted.fail e) where
  own_eq_nil v r reply w hrun := by cases hrun

instance (s : String) : Ownless (pure (Reply.ofText s)) := ownless_pure rfl

instance (b : Bytes) : Ownless (pure (Reply.ofBytes b)) := ownless_pure rfl

instance (b : Bool) : Ownless (pure (Reply.ofValue (.bool b))) := ownless_pure rfl

instance : Ownless (pure (Reply.ofValue .none)) := ownless_pure rfl

instance (v : Version) : Ownless (pure (Reply.ofValue (.version v))) := ownless_pure rfl

instance (s t : String) : Ownless (pure (Reply.ofValue (.tuple [.text s, .text t]))) :=
  ownless_pure rfl

instance (b c : Bytes) : Ownless (pure (Reply.ofValue (.tuple [.bytes b, .bytes c]))) :=
  ownless_pure rfl

instance (m : AuthInfo) : Ownless (pure (Reply.ofModel (.authInfo m))) := ownless_pure rfl

instance (m : LinkStatus) : Ownless (pure (Reply.ofModel (.linkStatus m))) := ownless_pure rfl

instance (names : Names) (o : KeyOperation) : Ownless (o.run names) := by
  cases o <;> (unfold KeyOperation.run; infer_instance)

instance (search : Blob.Search Bytes) :
    Ownless (replySearch search fun b => return .value (.bytes b)) where
  own_eq_nil v r reply w hrun := by
    unfold replySearch at hrun
    split at hrun
    · cases hrun
      rfl
    · cases hrun
      rfl

theorem exists_of_ok {α β : Type} {x : Except Failure α} {f : α → Except Failure β} {b : β}
    (h : x >>= f = .ok b) : ∃ a, f a = .ok b := by
  cases x with
  | error e => cases h
  | ok a => exact ⟨a, h⟩

theorem exists_of_map_ok {α β : Type} {x : Except Failure α} {f : α → β} {b : β}
    (h : x.map f = .ok b) : ∃ a, f a = b := by
  cases x with
  | error e => cases h
  | ok a => exact ⟨a, Except.ok.inj h⟩

theorem SecretQuery.own_answer {query : SecretQuery} (hquery : query ≠ .identity) {v : Vault}
    {x answer : Value} (h : query.answer v x = .ok answer) : (Object.value answer).own = [] := by
  cases query with
  | identity => exact absurd rfl hquery
  | content =>
    obtain ⟨secret, hanswer⟩ := exists_of_ok h
    cases hanswer
    rfl
  | reveal =>
    cases x with
    | sealed s =>
      obtain ⟨kind, slot⟩ := s
      cases kind with
      | bytes =>
        cases h
        rfl
      | text =>
        obtain ⟨t, rfl⟩ := exists_of_map_ok h
        rfl
    | _ => cases h
  | revealBytes =>
    cases x with
    | sealed s =>
      obtain ⟨kind, slot⟩ := s
      cases kind <;> cases h
      rfl
    | _ => cases h
  | hex =>
    cases x <;> cases h <;> rfl
  | size =>
    obtain ⟨n, rfl⟩ := exists_of_map_ok h
    rfl
  | nonEmpty | quoted | display =>
    cases h
    rfl
  | serialize => cases x <;> cases h
  | wipe | hash | scope => cases h

theorem Model.own_toFields {v : Vault} {m : Model} {fields : Value}
    (h : m.toFields v = .ok fields) : (Object.value fields).own = [] := by
  cases m with
  | authInfo m =>
    cases h
    rfl
  | loginRequest m | linkEdit m | linkAdd m =>
    obtain ⟨text, hfields⟩ := exists_of_ok h
    cases hfields
    rfl
  | loginResponse m | linkStatus m => cases h

end Ownless

theorem handsOut_keepText (s : String) : HandsOut [] Reply.own (Reply.keepText s) :=
  (handsOut_keep _ _).map fun _ => List.Subset.refl _

theorem own_sealed_list (kept : List Sealed) :
    (Reply.ofValue (.list (kept.map .sealed))).own = kept := by
  change (kept.map Value.sealed).filterMap Value.sealed? = kept
  rw [List.filterMap_map]
  exact List.filterMap_some

theorem handsOut_credentials {x : Vaulted SealedCredentials} [Has OnlyAdds x]
    (h : HandsOut [] (fun c => [c.masterKey, c.sentPassword]) x) :
    HandsOut [] Reply.own (do let c ← x; return .object (.credentials c)) :=
  h.map fun _ => List.Subset.refl _

section Operations

variable (names : Names)

/-- Whether an operation does no more than pass on what it was given. -/
def Operation.passesOn : Operation → Bool
  | secret .identity (.sealedCopy _ _) => false
  | secret .identity _ => true
  | credential (.identity _) => true
  | _ => false

theorem handsOut_sealedCopy (kind : SealedKind) (source : Arg) :
    HandsOut [] Reply.own (SecretQuery.identity.run names (.sealedCopy kind source)) := by
  have hcopy : HandsOut [] Object.own ((Arg.sealedCopy kind source).eval names) := by
    rw [Arg.eval]
    exact .after fun _ => .after fun _ => (handsOut_keep _ _).map fun _ => List.Subset.refl _
  exact hcopy.map fun _ => List.Subset.refl _

theorem SecretQuery.handsOut {query : SecretQuery} (hidentity : query ≠ .identity)
    (hwipe : query ≠ .wipe) (hscope : query ≠ .scope) (value : Arg) :
    HandsOut [] Reply.own (query.run names value) := by
  unfold run
  refine .after fun o => ?_
  split
  case h_1 => exact absurd rfl hidentity
  case h_2 | h_3 => exact absurd rfl hwipe
  case h_4 => exact absurd rfl hscope
  -- what is left are the questions with an answer
  refine .after fun x => Ownless.handsOut ⟨fun v r reply w hrun => ?_⟩
  obtain ⟨answer, u, r₁, hinspect, hrest⟩ := Vaulted.exists_of_bind_ok hrun
  cases hrest
  exact own_answer hidentity (Vaulted.eq_of_inspect_ok hinspect).1

theorem BlobOperation.handsOut (o : BlobOperation) : HandsOut [] Reply.own (o.run names) := by
  cases o with
  | decryptText data key =>
    exact .after fun _ => .after fun _ => .after fun t => handsOut_keepText t
  | decryptTextWithAny data keys =>
    refine .after fun _ => .after fun _ => .after fun search => ?_
    unfold replySearch
    split
    · exact HandsOut.map ((handsOut_keep .text _).map fun _ => List.Subset.refl _)
        fun _ => List.Subset.refl _
    · exact handsOut_pure (List.Subset.refl _)
  | decryptMasterKeys data key =>
    refine .after fun field => .after fun k =>
      (MasterKeys.handsOut_readSealed field k).map fun kept => ?_
    rw [own_sealed_list]
    exact List.Subset.refl kept
  | decryptPrivateKey data key =>
    exact .after fun field => .after fun k =>
      (PrivateKey.handsOut_readSealed field k).map fun _ => List.Subset.refl _
  | newLinkKey key version =>
    refine .after fun _ => .after fun _ => .after fun made => ?_
    exact (handsOut_keep _ _).map fun _ => List.Subset.refl _
  | _ =>
    -- the others reply with bytes, texts and versions
    apply Ownless.handsOut
    unfold run
    infer_instance

theorem CredentialOperation.handsOut {o : CredentialOperation}
    (hpasses : (Operation.credential o).passesOn = false)
    (hrelease : (Operation.credential o).isRelease = false) :
    HandsOut [] Reply.own (o.run names) := by
  cases o with
  | ofPassword password =>
    exact .after fun p => handsOut_credentials (SealedCredentials.handsOut_keep _)
  | ofPasswordAndSalt password salt =>
    exact .after fun p => .after fun s => .after fun c =>
      handsOut_credentials (SealedCredentials.handsOut_keep c)
  | ofDerivedKey key =>
    exact .after fun b => .after fun c =>
      handsOut_credentials (SealedCredentials.handsOut_keep c)
  | forVersion version password salt =>
    exact .after fun x => .after fun requested => .after fun p => .after fun s => .after fun v =>
      .after fun c => handsOut_credentials (SealedCredentials.handsOut_keep c)
  | identity credentials => cases hpasses
  | wipe credentials | scope credentials => cases hrelease
  | quoted credentials | hash credentials =>
    apply Ownless.handsOut
    unfold run
    infer_instance

theorem ModelOperation.handsOut (o : ModelOperation) : HandsOut [] Reply.own (o.run names) := by
  cases o with
  | deriveCredentials model password =>
    refine .after fun m => ?_
    cases m with
    | authInfo m =>
      exact .after fun p => handsOut_credentials (AuthInfo.handsOut_derive m p)
    | _ => exact Ownless.handsOut inferInstance
  | newLoginRequest email password twoFactorKey version =>
    refine .after fun e => .after fun p => .after fun k => .after fun n => ?_
    exact (LoginRequest.handsOut_new e p k n).map fun _ => List.Subset.refl _
  | loginRequestFor email credentials twoFactorKey =>
    refine .after fun e => .after fun c => .after fun k => ?_
    exact HandsOut.map (.after fun _ => LoginRequest.handsOut_new _ _ _ _)
      fun _ => List.Subset.refl _
  | readLoginResponse data =>
    exact .after fun x => (LoginResponse.handsOut_ofFields x).map fun _ => List.Subset.refl _
  | responseMasterKeys model key =>
    refine .after fun m => ?_
    cases m with
    | loginResponse m =>
      refine .after fun k => (LoginResponse.handsOut_decryptMasterKeys m k).map fun kept => ?_
      rw [own_sealed_list]
      exact List.Subset.refl kept
    | _ => exact Ownless.handsOut inferInstance
  | responsePrivateKey model key =>
    refine .after fun m => ?_
    cases m with
    | loginResponse m =>
      exact .after fun k =>
        (LoginResponse.handsOut_decryptPrivateKey m k).map fun _ => List.Subset.refl _
    | _ => exact Ownless.handsOut inferInstance
  | newLinkEdit apiKey uuid button expiration password =>
    refine .after fun choices => .after fun key => .after fun item => .after fun p => ?_
    exact (LinkEdit.handsOut_new _ _ _ _ _).map fun _ => List.Subset.refl _
  | linkEditOf apiKey button expiration state hashed salt uuid =>
    refine .after fun choices => .after fun p => .after fun key => .after fun h => .after fun s =>
      .after fun item => ?_
    exact (LinkEdit.handsOut_ofParts _ _ _ _ _ _ _).map fun _ => List.Subset.refl _
  | newLinkAdd apiKey uuid metadata parent linkType key linkKey version =>
    refine .after fun kind => .after fun api => .after fun item => .after fun data =>
      .after fun folder => .after fun masterKey => .after fun given => .after fun requested => ?_
    exact (LinkAdd.handsOut_new _ _ _ _ _ _ _ _).map fun _ => List.Subset.refl _
  | linkAddOf apiKey keyMetadata metadata parent linkType uuid linkUuid button expiration =>
    refine .after fun choices => .after fun kind => .after fun api => .after fun field =>
      .after fun data => .after fun folder => .after fun item => .after fun link => ?_
    exact (LinkAdd.handsOut_ofParts _ _ _ _ _ _ _ _ _).map fun _ => List.Subset.refl _
  | readLinkKey model keys =>
    refine .after fun m => ?_
    cases m with
    | linkStatus m =>
      refine .after fun ks => .after fun v => .after fun key => ?_
      cases key with
      | none => exact Ownless.handsOut inferInstance
      | some key => exact handsOut_keepText key
    | _ => exact Ownless.handsOut inferInstance
  | toFields model =>
    refine .after fun m => Ownless.handsOut ⟨fun v r reply w hrun => ?_⟩
    obtain ⟨fields, u, r₁, hinspect, hrest⟩ := Vaulted.exists_of_bind_ok hrun
    cases hrest
    exact Model.own_toFields (Vaulted.eq_of_inspect_ok hinspect).1
  | hasPassword model =>
    refine .after fun m => ?_
    cases m <;> exact Ownless.handsOut inferInstance
  | quoted model | newAuthInfo email version salt | readAuthInfo data | readLinkStatus data =>
    apply Ownless.handsOut
    unfold run
    infer_instance

theorem Operation.handsOut (time : String) {o : Operation} (hpasses : o.passesOn = false)
    (hrelease : o.isRelease = false) : HandsOut [] Reply.own (o.run time names) := by
  cases o with
  | key o => exact (inferInstance : Ownless (o.run names)).handsOut
  | blob o => exact o.handsOut names
  | secret query value =>
    by_cases hidentity : query = .identity
    · subst hidentity
      cases value with
      | sealedCopy kind source => exact handsOut_sealedCopy names kind source
      | _ => cases hpasses
    · refine SecretQuery.handsOut names hidentity ?_ ?_ value
      · rintro rfl
        cases hrelease
      · rintro rfl
        cases hrelease
  | equal first second =>
    apply Ownless.handsOut
    unfold run
    infer_instance
  | credential o => exact o.handsOut names hpasses hrelease
  | model o => exact o.handsOut names
  | settings env =>
    exact .after fun _ => handsOut_pure (List.Subset.refl _)
  | failure kind arguments =>
    refine .after fun x => ?_
    cases x with
    | list items => exact .after fun _ => handsOut_pure (List.Subset.refl _)
    | _ => exact Ownless.handsOut inferInstance
  | command separators arguments answers env =>
    exact .after fun _ => handsOut_pure (List.Subset.refl _)

end Operations

end Session

end SealedMetadata
