import SealedMetadata.Logbook
import SealedMetadata.Proofs.Session.Views

/-!
What gets into the buffers of a logbook. An operation leaves its lines in the configured buffer
where details are written, and nothing elsewhere. Two logbooks whose steps look the same in public
keep the same buffers.
-/

namespace SealedMetadata

namespace Logbook

/-- The state after steps. -/
def after (st : State) (ss : List Step) : State := ss.foldl (fun st s => (step st s).2) st

/-- Two states in which records are written alike. -/
structure Alike (st st' : State) : Prop where
  time : st.session.time = st'.session.time
  level : st.level = st'.level
  destination : st.destination? = st'.destination?
  buffers : st.buffers = st'.buffers

/-- What is public about a step of a logbook. -/
inductive View
  | configured (buffer : String) (level : Option Int)
  | logged (record : Log.Record)
  | ran (ownLog : Bool) (view : Session.View)
  deriving DecidableEq

def view (st : State) : Step → View
  | .configure buffer level => .configured buffer level
  | .log record => .logged record
  | .run s => .ran (hasOwnLog s) (Session.view st.session s)

def views (st : State) : List Step → List View
  | [] => []
  | s :: ss => view st s :: views (step st s).2 ss

theorem Alike.write {st st' : State} (h : Alike st st') (r : Log.Record) :
    Alike (write st r) (write st' r) := by
  unfold Logbook.write
  rw [← h.destination, ← h.level, ← h.buffers, ← h.time]
  cases st.destination? with
  | none => exact h
  | some name =>
    dsimp only
    split
    · exact ⟨h.time, rfl, rfl, rfl⟩
    · exact h

theorem Alike.writeAll {st st' : State} (h : Alike st st') (records : List Log.Record) :
    Alike (records.foldl Logbook.write st) (records.foldl Logbook.write st') := by
  induction records generalizing st st' with
  | nil => exact h
  | cons r records ih => exact ih (h.write r)

/-- One step keeps two logbooks alike, if it looks the same in both. -/
theorem Alike.step {st st' : State} (h : Alike st st') {s s' : Step}
    (hview : view st s = view st' s') : Alike (step st s).2 (step st' s').2 := by
  cases s with
  | configure buffer level =>
    cases s' with
    | configure buffer' level' =>
      cases hview
      refine ⟨h.time, rfl, rfl, ?_⟩
      simp only [Logbook.step, configure, h.buffers]
    | _ => cases hview
  | log record =>
    cases s' with
    | log record' =>
      cases hview
      exact h.write record
    | _ => cases hview
  | run s =>
    cases s' with
    | run s' =>
      obtain ⟨hown, hsame⟩ := View.ran.inj hview
      -- equal views leave equal events, whatever else is in the two sessions
      have hevents := Session.events_step_congr hsame
      have htime : (Session.step st.session s).state.time =
          (Session.step st'.session s').state.time := by
        rw [Session.time_step, Session.time_step, h.time]
      have hbefore : Alike { st with session := (Session.step st.session s).state }
          { st' with session := (Session.step st'.session s').state } :=
        ⟨htime, h.level, h.destination, h.buffers⟩
      simp only [Logbook.step, afterOperation]
      rw [← hown, ← hevents]
      split
      · exact ⟨htime, rfl, rfl, h.buffers⟩
      · exact hbefore.writeAll _
    | _ => cases hview

theorem Alike.after {st st' : State} (h : Alike st st') {ss ss' : List Step}
    (hviews : views st ss = views st' ss') : Alike (after st ss) (after st' ss') := by
  induction ss generalizing st st' ss' with
  | nil =>
    cases ss' with
    | nil => exact h
    | cons s' ss' => cases hviews
  | cons s ss ih =>
    cases ss' with
    | nil => cases hviews
    | cons s' ss' =>
      obtain ⟨hfirst, hrest⟩ := List.cons.inj hviews
      exact ih (h.step hfirst) hrest

theorem belongs_logger (e : Log.Event) : belongs e.record.logger = true := by
  cases e <;> (simp only [Log.Event.record]; decide)

theorem append_append (buffers : List (String × String)) (name s t : String) :
    append (append buffers name s) name t = append buffers name (s ++ t) := by
  rw [append, append, append, List.map_map]
  apply List.map_congr_left
  intro b hb
  rw [Function.comp_apply]
  by_cases hname : (b.1 == name) = true
  · rw [if_pos hname, if_pos hname, if_pos hname, String.append_assoc]
  · rw [if_neg hname, if_neg hname, if_neg hname]

theorem append_empty (buffers : List (String × String)) (name : String) :
    append buffers name "" = buffers := by
  rw [append]
  conv => rhs; rw [← List.map_id buffers]
  apply List.map_congr_left
  intro b hb
  rw [String.append_empty, ite_self]
  rfl

/-- A state with the text of events in a buffer, if details are written. -/
def State.withEvents (st : State) (name : String) (events : List Log.Event) : State :=
  { st with
    buffers :=
      if Log.ShowsDetails st.level then
        append st.buffers name (Log.textOf st.session.time events)
      else st.buffers }

theorem withEvents_nil (st : State) (name : String) : st.withEvents name [] = st := by
  have htext : Log.textOf st.session.time [] = "" := rfl
  rw [State.withEvents, htext, append_empty, ite_self]

theorem withEvents_append (st : State) (name : String) (events later : List Log.Event) :
    (st.withEvents name events).withEvents name later = st.withEvents name (events ++ later) := by
  simp only [State.withEvents, Log.textOf_append]
  split
  · rw [append_append]
  · rfl

theorem write_event {st : State} {name : String} (h : st.destination? = some name)
    (e : Log.Event) : write st e.record = st.withEvents name [e] := by
  have htext : Log.textOf st.session.time [e] = e.lineText st.session.time ++ "\n" := by
    rw [Log.textOf, List.map_singleton, String.join_cons, String.join_nil, String.append_empty]
  rw [write, State.withEvents, htext]
  simp only [h, belongs_logger, Bool.true_and, Log.Event.level_record, Log.Event.line_record,
    Log.isWritten_debugLevel_iff]
  split <;> rw [← h]

theorem write_events {st : State} {name : String} (h : st.destination? = some name)
    (events : List Log.Event) :
    (events.map Log.Event.record).foldl write st = st.withEvents name events := by
  -- each line is appended behind those of the events before it
  induction events generalizing st with
  | nil => exact (withEvents_nil st name).symm
  | cons e events ih =>
    have hname : (st.withEvents name [e]).destination? = some name := h
    rw [List.map_cons, List.foldl_cons, write_event h, ih hname, withEvents_append]
    rfl

/-- An operation leaves its lines in the configured buffer, if details are written, and changes
nothing else but the session. -/
theorem step_run {st : State} {name : String} (h : st.destination? = some name)
    {s : Session.Step} (hlog : hasOwnLog s = false) :
    (step st (.run s)).2 = State.withEvents
      { st with session := (Session.step st.session s).state } name
      (Session.step st.session s).events := by
  have hname : State.destination? { st with session := (Session.step st.session s).state } =
      some name := h
  rw [← write_events hname]
  simp only [step, afterOperation]
  rw [hlog]
  rfl

/-- A whole run of operations leaves the lines of all of them, in their order. -/
theorem buffers_after {st : State} {name : String} (h : st.destination? = some name)
    {ss : List Session.Step} (hlog : ∀ s ∈ ss, hasOwnLog s = false) :
    (after st (ss.map .run)).buffers =
      (st.withEvents name (Session.eventsOf st.session ss)).buffers := by
  induction ss generalizing st with
  | nil => exact congrArg State.buffers (withEvents_nil st name).symm
  | cons s ss ih =>
    obtain ⟨hfirst, hrest⟩ := List.forall_mem_cons.mp hlog
    have hname : (step st (.run s)).2.destination? = some name := by
      rw [step_run h hfirst]
      exact h
    have hsession : (step st (.run s)).2.session = (Session.step st.session s).state := by
      rw [step_run h hfirst]
      rfl
    have hlater := ih hname hrest
    rw [hsession, step_run h hfirst, withEvents_append] at hlater
    have htime := Session.time_step st.session s
    rw [List.map_cons, after, List.foldl_cons, ← after, step_run h hfirst, hlater]
    simp only [State.withEvents, htime, Session.eventsOf]

/-- A logbook whose buffers have different names, the destination's among them. -/
structure Tidy (st : State) : Prop where
  nodup : (st.buffers.map Prod.fst).Nodup
  destination_mem : ∀ name, st.destination? = some name → name ∈ st.buffers.map Prod.fst

theorem map_fst_append (buffers : List (String × String)) (name text : String) :
    (append buffers name text).map Prod.fst = buffers.map Prod.fst := by
  rw [append, List.map_map]
  apply List.map_congr_left
  intro b hb
  rw [Function.comp_apply]
  split <;> rfl

theorem Tidy.write {st : State} (h : Tidy st) (r : Log.Record) : Tidy (write st r) := by
  rw [Logbook.write]
  cases hname : st.destination? with
  | none => exact h
  | some name =>
    dsimp only
    split
    · refine ⟨?_, fun other hother => ?_⟩
      · rw [map_fst_append]
        exact h.nodup
      · rw [map_fst_append]
        exact h.destination_mem other (hname.trans hother)
    · exact h

theorem Tidy.writeAll {st : State} (h : Tidy st) (records : List Log.Record) :
    Tidy (records.foldl Logbook.write st) := by
  induction records generalizing st with
  | nil => exact h
  | cons r records ih => exact ih (h.write r)

theorem isSome_lookup_iff {buffers : List (String × String)} {name : String} :
    (buffers.lookup name).isSome = true ↔ name ∈ buffers.map Prod.fst := by
  induction buffers with
  | nil => simp
  | cons b buffers ih =>
    rw [List.lookup_cons, List.map_cons, List.mem_cons]
    by_cases hname : name = b.1
    · rw [beq_iff_eq.mpr hname]
      exact ⟨fun _ => Or.inl hname, fun _ => rfl⟩
    · rw [beq_false_of_ne hname]
      exact ih.trans (or_iff_right hname).symm

theorem Tidy.configure {st : State} (h : Tidy st) (buffer : String) (level : Int) :
    Tidy (configure st buffer level) := by
  rw [Logbook.configure]
  by_cases hknown : (st.buffers.lookup buffer).isSome = true
  · rw [if_pos hknown]
    refine ⟨h.nodup, ?_⟩
    rintro _ ⟨⟩
    exact isSome_lookup_iff.mp hknown
  · rw [if_neg hknown]
    refine ⟨?_, ?_⟩
    · rw [List.map_append, List.map_singleton]
      refine List.nodup_append.mpr ⟨h.nodup, List.pairwise_singleton _ buffer, ?_⟩
      intro name hname other hother heq
      rw [heq, List.mem_singleton.mp hother] at hname
      exact hknown (isSome_lookup_iff.mpr hname)
    · rintro _ ⟨⟩
      rw [List.map_append]
      exact List.mem_append_right _ List.mem_cons_self

theorem Tidy.step {st : State} (h : Tidy st) (s : Step) : Tidy (step st s).2 := by
  cases s with
  | configure buffer level => exact h.configure buffer _
  | log record => exact h.write record
  | run s =>
    simp only [Logbook.step, afterOperation]
    split
    · exact ⟨h.nodup, fun name hname => by cases hname⟩
    · have hnext : Tidy { st with session := (Session.step st.session s).state } :=
        ⟨h.nodup, h.destination_mem⟩
      exact hnext.writeAll _

/-- Whatever is done, the destination is one of the buffers. -/
theorem tidy_after (session : Session.State) (ss : List Step) :
    Tidy (after (.start session) ss) := by
  have hstart : Tidy (.start session) := ⟨List.nodup_nil, fun name hname => by cases hname⟩
  generalize State.start session = st at hstart
  induction ss generalizing st with
  | nil => exact hstart
  | cons s ss ih => exact ih _ (hstart.step s)

end Logbook

end SealedMetadata
