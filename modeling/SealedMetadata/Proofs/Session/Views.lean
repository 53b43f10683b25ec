import SealedMetadata.Proofs.Session.Logging

/-!
What is public about the steps of a session: what each is about, and the kind of its outcome. The
events of a step follow from that. So two sessions whose steps look the same in public log the
same lines, whatever keys, passwords, texts and random bytes there are in them.
-/

namespace SealedMetadata

open Log (Subject)

namespace Session

/-- What a step is about. -/
def subjectOf (st : State) (s : Step) : Subject :=
  Vaulted.subjectTold (s.operation.subject st.names) st.vault st.source

theorem outcome_ofReply (reply : Reply) (log : Option (List String)) :
    (Answer.ofReply reply log).outcome = (Answer.ofReply reply none).outcome := by
  cases reply with
  | search tried result => cases result <;> rfl
  | _ => rfl

theorem events_step (st : State) (s : Step) :
    (step st s).events = (subjectOf st s).events (step st s).answer.outcome := by
  have htold := s.operation.logsAsTold st.time st.names st.vault st.source
  rw [subjectOf, step]
  dsimp only
  cases hresult : ((s.operation.run st.time st.names).act st.vault st.source).1.result with
  | error e =>
    rw [hresult] at htold
    exact htold
  | ok reply =>
    rw [hresult] at htold
    dsimp only
    rw [outcome_ofReply]
    exact htold

theorem log_ofReply (reply : Reply) (log : Option (List String)) :
    (Answer.ofReply reply log).log = log := by
  cases reply with
  | search tried result => cases result <;> rfl
  | _ => rfl

theorem log_step (st : State) (s : Step) : (step st s).answer.log =
    s.level?.map fun level => Log.lines st.time level (step st s).events := by
  rw [step]
  dsimp only
  cases ((s.operation.run st.time st.names).act st.vault st.source).1.result with
  | error e => rfl
  | ok reply => exact log_ofReply reply _

theorem time_step (st : State) (s : Step) : (step st s).state.time = st.time := by
  rw [step]
  dsimp only
  cases ((s.operation.run st.time st.names).act st.vault st.source).1.result <;> rfl

/-- The events of all steps of a run. -/
def eventsOf (st : State) : List Step → List Log.Event
  | [] => []
  | s :: ss => (step st s).events ++ eventsOf (step st s).state ss

/-- What is public about a step. -/
structure View where
  subject : Subject
  outcome : Option FailureKind
  deriving DecidableEq

def view (st : State) (s : Step) : View := ⟨subjectOf st s, (step st s).answer.outcome⟩

/-- The levels of the steps in a run, and what is public about them. -/
def views (st : State) : List Step → List (Option Int × View)
  | [] => []
  | s :: ss => (s.level?, view st s) :: views (step st s).state ss

/-- The lines that the steps of a run log. -/
def logs (st : State) (ss : List Step) : List (Option (List String)) :=
  (runAll st ss).1.map fun answered => answered.1.log

theorem events_step_congr {st st' : State} {s s' : Step} (h : view st s = view st' s') :
    (step st s).events = (step st' s').events := by
  obtain ⟨hsubject, houtcome⟩ := View.mk.inj h
  rw [events_step, events_step, hsubject, houtcome]

theorem log_step_congr {st st' : State} {s s' : Step} (htime : st.time = st'.time)
    (hlevel : s.level? = s'.level?) (h : view st s = view st' s') :
    (step st s).answer.log = (step st' s').answer.log := by
  rw [log_step, log_step, htime, hlevel, events_step_congr h]

/-- A whole run logs the same lines as any other with the same views. -/
theorem logs_congr {st st' : State} {ss ss' : List Step} (htime : st.time = st'.time)
    (h : views st ss = views st' ss') : logs st ss = logs st' ss' := by
  -- the two states may differ in all but their time, which no step changes
  induction ss generalizing st st' ss' with
  | nil =>
    cases ss' with
    | nil => rfl
    | cons s' ss' => cases h
  | cons s ss ih =>
    cases ss' with
    | nil => cases h
    | cons s' ss' =>
      obtain ⟨hfirst, hrest⟩ := List.cons.inj h
      obtain ⟨hlevel, hview⟩ := Prod.mk.inj hfirst
      have hnext : (step st s).state.time = (step st' s').state.time := by
        rw [time_step, time_step, htime]
      have hlog := log_step_congr htime hlevel hview
      have hlogs := ih hnext hrest
      rw [logs, logs] at hlogs ⊢
      rw [runAll, runAll, List.map_cons, List.map_cons, hlog, hlogs]

end Session

end SealedMetadata
