import SealedMetadata.Log
import SealedMetadata.RandomSource

/-!
Computations that draw random bytes, log events and may fail. An action says what it logs and
where it leaves the random source whether it succeeds or fails.
-/

namespace SealedMetadata

/-- What an action comes to. -/
structure Outcome (α : Type) where
  result : Except Failure α
  events : List Log.Event
  source : RandomSource

/-- A computation on a random source. -/
structure Action (α : Type) where
  run : RandomSource → Outcome α

namespace Action

variable {α β : Type}

/-- One action after another: a failure ends the run, and keeps what was logged and drawn. -/
protected def bind (x : Action α) (f : α → Action β) : Action β :=
  ⟨fun r =>
    let o := x.run r
    match o.result with
    | .error e => ⟨.error e, o.events, o.source⟩
    | .ok a =>
      let p := (f a).run o.source
      ⟨p.result, o.events ++ p.events, p.source⟩⟩

instance : Monad Action where
  pure a := ⟨fun r => ⟨.ok a, [], r⟩⟩
  bind := Action.bind

def fail (e : Failure) : Action α := ⟨fun r => ⟨.error e, [], r⟩⟩

def log (event : Log.Event) : Action Unit := ⟨fun r => ⟨.ok (), [event], r⟩⟩

def draw (count : Nat) : Action Bytes := ⟨fun r => ⟨.ok (r.peek count), [], r.advance count⟩⟩

def ofExcept (x : Except Failure α) : Action α := ⟨fun r => ⟨x, [], r⟩⟩

/-- The action with its failure turned into a result. -/
def attempt (x : Action α) : Action (Except Failure α) :=
  ⟨fun r =>
    let o := x.run r
    ⟨.ok o.result, o.events, o.source⟩⟩

/-- The action with its result and its events handed over, so that it logs nothing itself. -/
def observe (x : Action α) : Action (Except Failure α × List Log.Event) :=
  ⟨fun r =>
    let o := x.run r
    ⟨.ok (o.result, o.events), [], o.source⟩⟩

@[ext] theorem ext {x y : Action α} (h : ∀ r, x.run r = y.run r) : x = y := by
  cases x; cases y; congr; funext r; exact h r

@[simp] theorem run_pure (a : α) (r : RandomSource) :
    (pure a : Action α).run r = ⟨.ok a, [], r⟩ := rfl

theorem run_bind (x : Action α) (f : α → Action β) (r : RandomSource) :
    (x >>= f).run r = match (x.run r).result with
      | .error e => ⟨.error e, (x.run r).events, (x.run r).source⟩
      | .ok a =>
        ⟨((f a).run (x.run r).source).result,
          (x.run r).events ++ ((f a).run (x.run r).source).events,
          ((f a).run (x.run r).source).source⟩ := rfl

@[simp] theorem run_fail (e : Failure) (r : RandomSource) :
    (fail e : Action α).run r = ⟨.error e, [], r⟩ := rfl

@[simp] theorem run_log (event : Log.Event) (r : RandomSource) :
    (log event).run r = ⟨.ok (), [event], r⟩ := rfl

@[simp] theorem run_draw (count : Nat) (r : RandomSource) :
    (draw count).run r = ⟨.ok (r.peek count), [], r.advance count⟩ := rfl

@[simp] theorem run_ofExcept (x : Except Failure α) (r : RandomSource) :
    (ofExcept x).run r = ⟨x, [], r⟩ := rfl

@[simp] theorem run_attempt (x : Action α) (r : RandomSource) :
    x.attempt.run r = ⟨.ok (x.run r).result, (x.run r).events, (x.run r).source⟩ := rfl

@[simp] theorem run_observe (x : Action α) (r : RandomSource) :
    x.observe.run r = ⟨.ok ((x.run r).result, (x.run r).events), [], (x.run r).source⟩ := rfl

/-- The result of one action after another is that of the second, unless the first fails. -/
theorem result_bind (x : Action α) (f : α → Action β) (r : RandomSource) :
    ((x >>= f).run r).result = match (x.run r).result with
      | .error e => .error e
      | .ok a => ((f a).run (x.run r).source).result := by
  rw [run_bind]
  cases (x.run r).result <;> rfl

@[simp] theorem ofExcept_ok_bind (a : α) (f : α → Action β) : ofExcept (.ok a) >>= f = f a := rfl

@[simp] theorem ofExcept_error_bind (e : Failure) (f : α → Action β) :
    ofExcept (.error e) >>= f = fail e := rfl

instance : LawfulMonad Action := by
  refine LawfulMonad.mk' Action ?_ ?_ ?_
  · intro α x
    ext1 r
    change (x >>= pure).run r = x.run r
    rw [run_bind]
    rcases x.run r with ⟨_ | _, events, source⟩
    · rfl
    · simp only [run_pure, List.append_nil]
  · intro α β a f
    rfl
  · intro α β γ x f g
    ext1 r
    simp only [run_bind]
    rcases x.run r with ⟨_ | a, events, source⟩
    · rfl
    · dsimp only
      rcases (f a).run source with ⟨_ | b, events', source'⟩
      · rfl
      · simp only [List.append_assoc]

end Action

end SealedMetadata
