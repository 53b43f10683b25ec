import SealedMetadata.Action

/-!
How many random bytes an action draws. An action that draws so many bytes leaves the source just
behind them, and what it comes to depends on no others. One that is quiet draws none.
-/

namespace SealedMetadata

namespace RandomSource

variable {r r' : RandomSource} {m n : Nat}

@[simp] theorem advance_zero (r : RandomSource) : r.advance 0 = r := rfl

theorem advance_advance (r : RandomSource) (m n : Nat) :
    (r.advance m).advance n = r.advance (m + n) := by
  simp only [advance, Nat.add_assoc]

theorem peek_add (r : RandomSource) (m n : Nat) :
    r.peek (m + n) = r.peek m ++ (r.advance m).peek n := by
  simp only [peek, List.range_add, List.map_append, List.map_map, cursor_advance, stream_advance]
  refine congrArg _ (List.map_congr_left fun i _ => ?_)
  rw [Function.comp_apply, Nat.add_assoc]

/-- Sources that agree on some bytes agree on the first ones of these and on the rest. -/
theorem peek_eq_of_add (h : r'.peek (m + n) = r.peek (m + n)) :
    r'.peek m = r.peek m ∧ (r'.advance m).peek n = (r.advance m).peek n := by
  rw [peek_add, peek_add] at h
  exact List.append_inj h (by rw [length_peek, length_peek])

end RandomSource

namespace Action

variable {α β : Type} {x : Action α} {f : α → Action β} {m n : Nat}

/-- An action draws the next `n` bytes, and what it comes to depends on these alone. -/
def Draws (x : Action α) (n : Nat) : Prop :=
  ∀ r r' : RandomSource, r'.peek n = r.peek n →
    x.run r' = ⟨(x.run r).result, (x.run r).events, r'.advance n⟩

/-- An action that draws nothing. -/
class Quiet (x : Action α) : Prop where
  draws : x.Draws 0

/-- An action that never fails. -/
def Succeeds (x : Action α) : Prop := ∀ r, ∃ a, (x.run r).result = .ok a

/-- An action that fails under every source. -/
def Fails (x : Action α) : Prop := ∀ r, ∃ e, (x.run r).result = .error e

theorem Succeeds.bind (hx : x.Succeeds) (hf : ∀ a, (f a).Succeeds) : (x >>= f).Succeeds := by
  intro r
  obtain ⟨a, ha⟩ := hx r
  rw [result_bind, ha]
  exact hf a (x.run r).source

theorem succeeds_pure (a : α) : (pure a : Action α).Succeeds := fun _ => ⟨a, rfl⟩

theorem Fails.bind (hx : x.Fails) (f : α → Action β) : (x >>= f).Fails := by
  intro r
  obtain ⟨e, he⟩ := hx r
  rw [result_bind, he]
  exact ⟨e, rfl⟩

theorem fails_bind (x : Action α) (hf : ∀ a, (f a).Fails) : (x >>= f).Fails := by
  intro r
  rw [result_bind]
  cases (x.run r).result with
  | error e => exact ⟨e, rfl⟩
  | ok a => exact hf a (x.run r).source

theorem Draws.source (h : x.Draws n) (r : RandomSource) : (x.run r).source = r.advance n :=
  congrArg Outcome.source (h r r rfl)

theorem draws_zero (x : Action α) [hx : Quiet x] : x.Draws 0 := hx.draws

theorem run_quiet (x : Action α) [hx : Quiet x] (r r' : RandomSource) :
    x.run r' = ⟨(x.run r).result, (x.run r).events, r'⟩ :=
  hx.draws r r' rfl

theorem quiet_of_run_eq (result : Except Failure α) (events : List Log.Event)
    (h : ∀ r, x.run r = ⟨result, events, r⟩) : Quiet x := by
  refine ⟨fun r r' _ => ?_⟩
  rw [h r, h r']
  rfl

/-- One action after another that never fails: each draws its bytes, in order. -/
theorem Draws.bind (hx : x.Draws m) (hok : x.Succeeds) (hf : ∀ a, (f a).Draws n) :
    (x >>= f).Draws (m + n) := by
  intro r r' hr
  -- the sources agree on what the first action draws, and behind it on what the second one does
  obtain ⟨hfirst, hrest⟩ := RandomSource.peek_eq_of_add hr
  obtain ⟨a, ha⟩ := hok r
  have hnext := hf a _ _ hrest
  rw [run_bind, run_bind, hx r r' hfirst, hx.source r, ha]
  dsimp only
  rw [hnext, RandomSource.advance_advance]

/-- What draws nothing after an action adds nothing to its bytes, whether the action fails or
not. -/
theorem Draws.bind_quiet (hx : x.Draws n) (f : α → Action β) [hf : ∀ a, Quiet (f a)] :
    (x >>= f).Draws n := by
  intro r r' hr
  rw [run_bind, run_bind, hx r r' hr, hx.source r]
  cases (x.run r).result with
  | error e => rfl
  | ok a =>
    dsimp only
    rw [run_quiet (f a) (r.advance n) (r'.advance n)]

instance (a : α) : Quiet (pure a : Action α) := quiet_of_run_eq _ _ (run_pure a)

theorem Draws.map (hx : x.Draws n) (f : α → β) : (f <$> x).Draws n :=
  hx.bind_quiet fun a => pure (f a)

theorem Draws.after (hf : ∀ a, (f a).Draws n) (x : Action α) [hx : Quiet x] (hok : x.Succeeds) :
    (x >>= f).Draws n := by
  have h := hx.draws.bind hok hf
  rwa [Nat.zero_add] at h

theorem Draws.attempt (hx : x.Draws n) : x.attempt.Draws n := by
  intro r r' hr
  rw [run_attempt, run_attempt, hx r r' hr]

theorem Draws.observe (hx : x.Draws n) : x.observe.Draws n := by
  intro r r' hr
  rw [run_observe, run_observe, hx r r' hr]

theorem draws_draw (n : Nat) : (draw n).Draws n := by
  intro r r' hr
  rw [run_draw, run_draw, hr]

theorem succeeds_log (event : Log.Event) : (log event).Succeeds := fun _ => ⟨(), rfl⟩

section Instances

instance (e : Failure) : Quiet (fail e : Action α) := quiet_of_run_eq _ _ (run_fail e)

instance (event : Log.Event) : Quiet (log event) := quiet_of_run_eq _ _ (run_log event)

instance (x : Except Failure α) : Quiet (ofExcept x) := quiet_of_run_eq _ _ (run_ofExcept x)

instance (x : Action α) (f : α → Action β) [hx : Quiet x] [∀ a, Quiet (f a)] :
    Quiet (x >>= f) :=
  ⟨hx.draws.bind_quiet f⟩

instance (f : α → β) (x : Action α) [hx : Quiet x] : Quiet (f <$> x) :=
  ⟨hx.draws.map f⟩

instance (x : Action α) [hx : Quiet x] : Quiet x.attempt := ⟨hx.draws.attempt⟩

instance (p : Prop) [Decidable p] (x y : Action α) [Quiet x] [Quiet y] :
    Quiet (if p then x else y) := by
  split <;> infer_instance

end Instances

end Action

end SealedMetadata
