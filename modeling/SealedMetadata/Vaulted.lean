import SealedMetadata.Action
import SealedMetadata.Vault

/-!
Operations on a vault. An operation draws and logs as actions do, and it leaves a vault behind,
whether it succeeds or fails: what it did to the buffers before it failed stays done.
-/

namespace SealedMetadata

/-- An operation: its outcome, and the vault that it leaves. -/
structure Vaulted (α : Type) where
  act : Vault → RandomSource → Outcome α × Vault

namespace Vaulted

variable {α β : Type}

/-- One operation after another: a failure ends the run, and keeps what was done until then. -/
protected def bind (x : Vaulted α) (f : α → Vaulted β) : Vaulted β :=
  ⟨fun v r =>
    let o := x.act v r
    match o.1.result with
    | .error e => (⟨.error e, o.1.events, o.1.source⟩, o.2)
    | .ok a =>
      let p := (f a).act o.2 o.1.source
      (⟨p.1.result, o.1.events ++ p.1.events, p.1.source⟩, p.2)⟩

instance : Monad Vaulted where
  pure a := ⟨fun v r => (⟨.ok a, [], r⟩, v)⟩
  bind := Vaulted.bind

instance : MonadStateOf Vault Vaulted where
  get := ⟨fun v r => (⟨.ok v, [], r⟩, v)⟩
  set w := ⟨fun _ r => (⟨.ok ⟨⟩, [], r⟩, w)⟩
  modifyGet f := ⟨fun v r => (⟨.ok (f v).1, [], r⟩, (f v).2)⟩

/-- The vault that an operation leaves. -/
def left (x : Vaulted α) (v : Vault) (r : RandomSource) : Vault := (x.act v r).2

/-- The operation as an action whose result comes with the vault. Where it fails, the vault is not
told. -/
def run (x : Vaulted α) (v : Vault) : Action (α × Vault) :=
  ⟨fun r =>
    let o := x.act v r
    ⟨o.1.result.map fun a => (a, o.2), o.1.events, o.1.source⟩⟩

/-- The operation as an action after which the vault is not needed any more. -/
def runIn (x : Vaulted α) (v : Vault) : Action α := ⟨fun r => (x.act v r).1⟩

/-- An action that leaves the vault alone. -/
def perform (x : Action α) : Vaulted α := ⟨fun v r => (x.run r, v)⟩

/-- A plain result, from a look at the vault. -/
def inspect (f : Vault → Except Failure α) : Vaulted α := do
  let v ← get
  perform (Action.ofExcept (f v))

def fail (e : Failure) : Vaulted α := perform (Action.fail e)

def keep (kind : SealedKind) (content : Bytes) : Vaulted Sealed := do
  let v ← get
  let r := v.add kind content
  set r.2
  return r.1

/-- Empties the buffer of a sealed value. -/
def wipe (s : Sealed) : Vaulted Unit := modify fun v => v.wipe s

/-- An operation with a last change of the vault, which is made whether it succeeds or fails. -/
def ensuring (x : Vaulted α) (change : Vault → Vault) : Vaulted α :=
  ⟨fun v r =>
    let o := x.act v r
    (o.1, change o.2)⟩

/-- An operation in the scope of a sealed value, which is wiped when the scope is left. -/
def within (s : Sealed) (x : Vaulted α) : Vaulted α := x.ensuring fun v => v.wipe s

theorem ext {x y : Vaulted α} (h : ∀ v r, x.act v r = y.act v r) : x = y := by
  cases x; cases y; congr; funext v r; exact h v r

@[simp] theorem act_pure (a : α) (v : Vault) (r : RandomSource) :
    (pure a : Vaulted α).act v r = (⟨.ok a, [], r⟩, v) := rfl

theorem act_bind (x : Vaulted α) (f : α → Vaulted β) (v : Vault) (r : RandomSource) :
    (x >>= f).act v r = match (x.act v r).1.result with
      | .error e => (⟨.error e, (x.act v r).1.events, (x.act v r).1.source⟩, x.left v r)
      | .ok a =>
        (⟨((f a).act (x.left v r) (x.act v r).1.source).1.result,
          (x.act v r).1.events ++ ((f a).act (x.left v r) (x.act v r).1.source).1.events,
          ((f a).act (x.left v r) (x.act v r).1.source).1.source⟩,
          ((f a).act (x.left v r) (x.act v r).1.source).2) := rfl

/-- What follows a silent success takes over where that ends. -/
theorem act_bind_of_silent {x : Vaulted α} (f : α → Vaulted β) {v w : Vault}
    {r r' : RandomSource} {a : α} (h : x.act v r = (⟨.ok a, [], r'⟩, w)) :
    (x >>= f).act v r = (f a).act w r' := by
  rw [act_bind, left, h]
  rfl

/-- What follows a failure is not reached. -/
theorem act_bind_of_error {x : Vaulted α} (f : α → Vaulted β) {v w : Vault} {r : RandomSource}
    {e : Failure} {events : List Log.Event} {r' : RandomSource}
    (h : x.act v r = (⟨.error e, events, r'⟩, w)) :
    (x >>= f).act v r = (⟨.error e, events, r'⟩, w) := by
  rw [act_bind, left, h]

@[simp] theorem act_perform (x : Action α) (v : Vault) (r : RandomSource) :
    (perform x).act v r = (x.run r, v) := rfl

@[simp] theorem act_keep (kind : SealedKind) (content : Bytes) (v : Vault) (r : RandomSource) :
    (keep kind content).act v r =
      (⟨.ok (v.add kind content).1, [], r⟩, (v.add kind content).2) := rfl

@[simp] theorem act_wipe (s : Sealed) (v : Vault) (r : RandomSource) :
    (wipe s).act v r = (⟨.ok (), [], r⟩, v.wipe s) := rfl

@[simp] theorem act_ensuring (x : Vaulted α) (change : Vault → Vault) (v : Vault)
    (r : RandomSource) : (x.ensuring change).act v r = ((x.act v r).1, change (x.left v r)) := rfl

theorem act_perform_bind (x : Action α) (f : α → Vaulted β) (v : Vault) (r : RandomSource) :
    (perform x >>= f).act v r = match (x.run r).result with
      | .error e => (⟨.error e, (x.run r).events, (x.run r).source⟩, v)
      | .ok a =>
        (⟨((f a).act v (x.run r).source).1.result,
          (x.run r).events ++ ((f a).act v (x.run r).source).1.events,
          ((f a).act v (x.run r).source).1.source⟩, ((f a).act v (x.run r).source).2) := rfl

theorem act_inspect (f : Vault → Except Failure α) (v : Vault) (r : RandomSource) :
    (inspect f).act v r = (⟨f v, [], r⟩, v) := rfl

theorem act_inspect_bind (g : Vault → Except Failure α) (f : α → Vaulted β) (v : Vault)
    (r : RandomSource) : (inspect g >>= f).act v r = match g v with
      | .error e => (⟨.error e, [], r⟩, v)
      | .ok a => (f a).act v r := by
  rw [act_bind, act_inspect]
  cases g v <;> rfl

theorem run_run (x : Vaulted α) (v : Vault) (r : RandomSource) :
    (x.run v).run r = ⟨(x.act v r).1.result.map fun a => (a, x.left v r), (x.act v r).1.events,
      (x.act v r).1.source⟩ := rfl

theorem run_bind (x : Vaulted α) (f : α → Vaulted β) (v : Vault) :
    (x >>= f).run v = x.run v >>= fun p => (f p.1).run p.2 := by
  ext1 r
  rw [Action.run_bind, run_run, run_run, left, act_bind]
  cases (x.act v r).1.result <;> rfl

theorem run_perform (x : Action α) (v : Vault) :
    (perform x).run v = x >>= fun a => pure (a, v) := by
  ext1 r
  rw [Action.run_bind, run_run, left, act_perform]
  rcases x.run r with ⟨_ | _, events, source⟩
  · rfl
  · simp only [Except.map, Action.run_pure, List.append_nil]

@[simp] theorem run_runIn (x : Vaulted α) (v : Vault) (r : RandomSource) :
    (x.runIn v).run r = (x.act v r).1 := rfl

theorem runIn_eq (x : Vaulted α) (v : Vault) : x.runIn v = Prod.fst <$> x.run v := by
  ext1 r
  rw [← bind_pure_comp, Action.run_bind, run_run, run_runIn]
  rcases x.act v r with ⟨⟨_ | _, events, source⟩, w⟩
  · rfl
  · simp only [Except.map, Action.run_pure, List.append_nil]

instance : LawfulMonad Vaulted := by
  refine LawfulMonad.mk' Vaulted ?_ ?_ ?_
  · intro α x
    apply ext
    intro v r
    change (x >>= pure).act v r = x.act v r
    rw [act_bind, left]
    rcases x.act v r with ⟨⟨_ | _, events, source⟩, w⟩
    · rfl
    · simp only [act_pure, List.append_nil]
  · intro α β a f
    rfl
  · intro α β γ x f g
    apply ext
    intro v r
    simp only [act_bind, left]
    rcases x.act v r with ⟨⟨_ | a, events, source⟩, w⟩
    · rfl
    · dsimp only
      rcases (f a).act w source with ⟨⟨_ | b, events', source'⟩, w'⟩
      · rfl
      · simp only [List.append_assoc]

end Vaulted

end SealedMetadata
