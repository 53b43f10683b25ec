import SealedMetadata.Proofs.Session.Growth

/-!
The life of a sealed value. It has the bytes that it was made with until it is released, by itself
or with the credentials that it belongs to, and none from then on. No other operation touches it,
whether that succeeds or fails, and however many names the value goes by.
-/

namespace SealedMetadata.Session

open Vaulted (Has has_bind OnlyAdds)

/-- Whether an operation releases a value or credentials: by wiping, or by leaving their scope. -/
def Operation.isRelease : Operation → Bool
  | secret .wipe _ | secret .scope _ => true
  | credential (.wipe _) | credential (.scope _) => true
  | _ => false

/-- The sealed value that an argument is, if it is one. -/
def sealedIn (names : Names) (value : Arg) : Vaulted (List Sealed) := do
  match ← value.eval names with
  | .value (.sealed s) => return [s]
  | _ => return []

/-- The two halves of the credentials that an argument is. -/
def halvesIn (names : Names) (credentials : Arg) : Vaulted (List Sealed) := do
  let c ← credentials.evalCredentials names
  return [c.masterKey, c.sentPassword]

/-- The sealed values that an operation releases. -/
def Operation.released (names : Names) : Operation → Vaulted (List Sealed)
  | secret .wipe value | secret .scope value => sealedIn names value
  | credential (.wipe credentials) | credential (.scope credentials) => halvesIn names credentials
  | _ => return []

theorem Operation.onlyAdds (time : String) (names : Names) {o : Operation}
    (h : o.isRelease = false) : Has OnlyAdds (o.run time names) := by
  cases o with
  | secret query value =>
    have hwipe : query ≠ .wipe := by
      rintro rfl
      cases h
    have hscope : query ≠ .scope := by
      rintro rfl
      cases h
    exact SecretQuery.onlyAdds names hwipe hscope value
  | credential o =>
    cases o with
    | wipe _ | scope _ => cases h
    | _ =>
      unfold run CredentialOperation.run
      infer_instance
  | failure kind arguments =>
    unfold run
    exact has_bind fun x => by cases x <;> infer_instance
  | _ =>
    unfold run
    infer_instance

instance (names : Names) (value : Arg) : Has OnlyAdds (sealedIn names value) := by
  unfold sealedIn
  exact has_bind fun o => by split <;> infer_instance

instance (names : Names) (credentials : Arg) : Has OnlyAdds (halvesIn names credentials) := by
  unfold halvesIn
  infer_instance

instance (names : Names) (o : Operation) : Has OnlyAdds (o.released names) := by
  unfold Operation.released
  split <;> infer_instance

/-- The values that an operation gives, none if it fails. -/
def given (x : Vaulted (List Sealed)) (v : Vault) (r : RandomSource) : List Sealed :=
  match (x.act v r).1.result with
  | .ok values => values
  | .error _ => []

/-- An operation empties what another one gives, in the vault that this one leaves. -/
def Empties {α : Type} (x : Vaulted α) (values : Vaulted (List Sealed)) : Prop :=
  ∀ v r, x.left v r = (values.left v r).wipeAll (given values v r)

/-- What is read first may be read by both. -/
theorem Empties.after {α β : Type} {e : Vaulted α} {f : α → Vaulted β}
    {g : α → Vaulted (List Sealed)} (h : ∀ a, Empties (f a) (g a)) :
    Empties (e >>= f) (e >>= g) := by
  intro v r
  rw [Vaulted.left_bind, Vaulted.left_bind, given, Vaulted.result_act_bind]
  cases (e.act v r).1.result with
  | error err => rfl
  | ok a => exact h a _ _

theorem SecretQuery.empties {query : SecretQuery} (hquery : query = .wipe ∨ query = .scope)
    (names : Names) (value : Arg) : Empties (query.run names value) (sealedIn names value) := by
  unfold run sealedIn
  refine .after fun o => ?_
  -- anything but a sealed value is refused
  rcases hquery with rfl | rfl
  all_goals
    cases o with
    | value x => cases x <;> exact fun v r => rfl
    | _ => exact fun v r => rfl

/-- The scope of credentials is left whether they can be shown or not. -/
theorem empties_scope (c : SealedCredentials) : Empties
    (c.within (bothHex c) >>= fun before => bothHex c >>= fun after =>
      return Reply.ofValue (.list [before, after]))
    (return [c.masterKey, c.sentPassword]) := by
  intro v r
  rw [Vaulted.left_bind]
  split
  · rfl
  · rw [Vaulted.left_bind]
    split <;> rfl

theorem CredentialOperation.empties {o : CredentialOperation} {credentials : Arg}
    (ho : o = .wipe credentials ∨ o = .scope credentials) (names : Names) :
    Empties (o.run names) (halvesIn names credentials) := by
  rcases ho with rfl | rfl
  · exact .after fun c v r => rfl
  · exact .after empties_scope

/-- An operation that releases something does so as its last change, whether it succeeds or fails,
and releases all that it is told to. -/
theorem Operation.empties {o : Operation} (ho : o.isRelease = true) (time : String)
    (names : Names) : Empties (o.run time names) (o.released names) := by
  cases o with
  | secret query value =>
    cases query with
    | wipe => exact SecretQuery.empties (.inl rfl) names value
    | scope => exact SecretQuery.empties (.inr rfl) names value
    | _ => cases ho
  | credential o =>
    cases o with
    | wipe credentials => exact CredentialOperation.empties (.inl rfl) names
    | scope credentials => exact CredentialOperation.empties (.inr rfl) names
    | _ => cases ho
  | _ => cases ho

/-- An operation replies with a value wherever another one gives anything. -/
def RepliesOnRelease (x : Vaulted Reply) (values : Vaulted (List Sealed)) : Prop :=
  ∀ v r, given values v r ≠ [] → ∃ y, (x.act v r).1.result = .ok (.ofValue y)

theorem RepliesOnRelease.after {α : Type} {e : Vaulted α} {f : α → Vaulted Reply}
    {g : α → Vaulted (List Sealed)} (h : ∀ a, RepliesOnRelease (f a) (g a)) :
    RepliesOnRelease (e >>= f) (e >>= g) := by
  intro v r hgiven
  rw [given, Vaulted.result_act_bind] at hgiven
  rw [Vaulted.result_act_bind]
  cases heval : (e.act v r).1.result with
  | error err =>
    rw [heval] at hgiven
    exact absurd rfl hgiven
  | ok a =>
    rw [heval] at hgiven
    exact h a _ _ hgiven

theorem SecretQuery.repliesOnRelease {query : SecretQuery}
    (hquery : query = .wipe ∨ query = .scope) (names : Names) (value : Arg) :
    RepliesOnRelease (query.run names value) (sealedIn names value) := by
  unfold run sealedIn
  refine .after fun o v r hgiven => ?_
  rcases hquery with rfl | rfl
  all_goals
    cases o with
    | value x =>
      cases x with
      | sealed s => exact ⟨_, rfl⟩
      | _ => exact absurd rfl hgiven
    | _ => exact absurd rfl hgiven

theorem Operation.repliesOnRelease {o : Operation} (ho : o.isRelease = true)
    (hscope : ∀ credentials, o ≠ .credential (.scope credentials)) (time : String)
    (names : Names) : RepliesOnRelease (o.run time names) (o.released names) := by
  cases o with
  | secret query value =>
    cases query with
    | wipe => exact SecretQuery.repliesOnRelease (.inl rfl) names value
    | scope => exact SecretQuery.repliesOnRelease (.inr rfl) names value
    | _ => cases ho
  | credential o =>
    cases o with
    | wipe credentials => exact .after fun c v r hgiven => ⟨_, rfl⟩
    | scope credentials => exact absurd rfl (hscope credentials)
    | _ => cases ho
  | _ => cases ho

/-- The sealed values that a step releases. -/
def released (st : State) (s : Step) : List Sealed :=
  if s.operation.isRelease then given (s.operation.released st.names) st.vault st.source else []

/-- The vault with all that a step makes, before it releases anything. -/
def filled (st : State) (s : Step) : Vault :=
  if s.operation.isRelease then (s.operation.released st.names).left st.vault st.source
  else (s.operation.run st.time st.names).left st.vault st.source

theorem vault_step (st : State) (s : Step) : (step st s).state.vault =
    (s.operation.run st.time st.names).left st.vault st.source := by
  rw [step, Vaulted.left]
  dsimp only
  cases ((s.operation.run st.time st.names).act st.vault st.source).1.result <;> rfl

/-- One step, whether it succeeds or fails: new buffers behind the old ones, and then the release
of what is released. -/
theorem step_vault (st : State) (s : Step) :
    st.vault.Grown (filled st s) ∧
      (step st s).state.vault = (filled st s).wipeAll (released st s) := by
  rw [vault_step, filled, released]
  cases hrelease : s.operation.isRelease with
  | true =>
    -- what is released is read first, and reading it may make copies
    have hreleased : Has OnlyAdds (s.operation.released st.names) := inferInstance
    exact ⟨hreleased.holds _ _, Operation.empties hrelease st.time st.names _ _⟩
  | false =>
    have hadds := Operation.onlyAdds st.time st.names hrelease
    exact ⟨hadds.holds _ _, rfl⟩

/-- Only the four operations that release something do. -/
theorem released_eq_nil (st : State) {s : Step} (h : s.operation.isRelease = false) :
    released st s = [] := by
  rw [released, h]
  rfl

theorem step_of_ok {st : State} {s : Step} {reply : Reply} {w : Vault}
    (h : (((s.operation.run st.time st.names).run st.vault).run st.source).result =
      .ok (reply, w)) :
    ∃ log, (step st s).answer = Answer.ofReply reply log ∧ (step st s).state.vault = w := by
  have hleft := Vaulted.left_of_run_ok h
  have hresult : ((s.operation.run st.time st.names).act st.vault st.source).1.result =
      .ok reply := Vaulted.result_of_run_ok h
  rw [vault_step, hleft, step]
  dsimp only
  rw [hresult]
  exact ⟨_, rfl, rfl⟩

theorem step_of_error {st : State} {s : Step} {e : Failure}
    (h : ((s.operation.run st.time st.names).act st.vault st.source).1.result = .error e) :
    (step st s).answer.result = .error e := by
  rw [step]
  dsimp only
  rw [h]

/-- What a step releases, it releases with an answer, unless it leaves the scope of credentials. -/
theorem released_eq_nil_of_error {st : State} {s : Step} {e : Failure}
    (h : (step st s).answer.result = .error e)
    (hscope : ∀ credentials, s.operation ≠ .credential (.scope credentials)) :
    released st s = [] := by
  rw [released]
  split
  next hrelease =>
    by_contra hgiven
    obtain ⟨x, hx⟩ :=
      Operation.repliesOnRelease hrelease hscope st.time st.names st.vault st.source hgiven
    rw [step] at h
    dsimp only at h
    rw [hx] at h
    cases h
  next => rfl

section Members

variable {names : Names} {v : Vault} {r : RandomSource} {k : Sealed}

theorem eval_of_mem_sealedIn {value : Arg} (hk : k ∈ given (sealedIn names value) v r) :
    ((value.eval names).act v r).1.result = .ok (.value (.sealed k)) := by
  rw [given, sealedIn, Vaulted.result_act_bind] at hk
  cases heval : ((value.eval names).act v r).1.result with
  | error e =>
    rw [heval] at hk
    cases hk
  | ok o =>
    rw [heval] at hk
    cases o with
    | value x =>
      cases x with
      | sealed s => rw [List.mem_singleton.mp hk]
      | _ => cases hk
    | _ => cases hk

theorem eval_of_mem_halvesIn {credentials : Arg}
    (hk : k ∈ given (halvesIn names credentials) v r) :
    ∃ c, ((credentials.evalCredentials names).act v r).1.result = .ok c ∧
      (k = c.masterKey ∨ k = c.sentPassword) := by
  rw [given, halvesIn, Vaulted.result_act_bind] at hk
  cases heval : ((credentials.evalCredentials names).act v r).1.result with
  | error e =>
    rw [heval] at hk
    cases hk
  | ok c =>
    rw [heval] at hk
    refine ⟨c, rfl, ?_⟩
    rcases List.mem_cons.mp hk with hfirst | hk
    · exact .inl hfirst
    · exact .inr (List.mem_singleton.mp hk)

end Members

/-- A value is released by wiping it or leaving its scope, or by doing so to the credentials that
it is a half of. -/
theorem release_of_mem_released {st : State} {s : Step} {k : Sealed} (h : k ∈ released st s) :
    (∃ value, (s.operation = .secret .wipe value ∨ s.operation = .secret .scope value) ∧
      ((value.eval st.names).act st.vault st.source).1.result = .ok (.value (.sealed k))) ∨
    (∃ credentials c, (s.operation = .credential (.wipe credentials) ∨
        s.operation = .credential (.scope credentials)) ∧
      ((credentials.evalCredentials st.names).act st.vault st.source).1.result = .ok c ∧
      (k = c.masterKey ∨ k = c.sentPassword)) := by
  rw [released] at h
  split at h
  next hrelease =>
    cases hoperation : s.operation with
    | secret query value =>
      rw [hoperation] at h hrelease
      cases query with
      | wipe => exact .inl ⟨value, .inl rfl, eval_of_mem_sealedIn h⟩
      | scope => exact .inl ⟨value, .inr rfl, eval_of_mem_sealedIn h⟩
      | _ => cases hrelease
    | credential o =>
      rw [hoperation] at h hrelease
      cases o with
      | wipe credentials =>
        obtain ⟨c, heval, hhalf⟩ := eval_of_mem_halvesIn h
        exact .inr ⟨credentials, c, .inl rfl, heval, hhalf⟩
      | scope credentials =>
        obtain ⟨c, heval, hhalf⟩ := eval_of_mem_halvesIn h
        exact .inr ⟨credentials, c, .inr rfl, heval, hhalf⟩
      | _ => cases hrelease
    | _ =>
      rw [hoperation] at hrelease
      cases hrelease
  next => cases h

end SealedMetadata.Session
