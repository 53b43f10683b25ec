import SealedMetadata.Session.Run

/-!
Named text buffers to which the package's log records go. Configuring the log sets a level and
makes one buffer the only destination.
-/

namespace SealedMetadata.Logbook

/-- A session with the buffers that its events are written to: the level, the destination if one
is configured, and the number of destinations that were created. -/
structure State where
  session : Session.State
  level : Int
  destination? : Option String
  created : Nat
  buffers : List (String × String)

def State.start (session : Session.State) : State := ⟨session, 0, none, 0, []⟩

/-- One step: configure the log, log a record, or run an operation. -/
inductive Step
  | configure (buffer : String) (level : Option Int)
  | log (record : Log.Record)
  | run (step : Session.Step)

/-- What a step replies: the level that was set and the number of the destination in order of
creation, the contents of all buffers, or the answer of an operation. -/
inductive Reply
  | configured (level : Int) (destination : Nat)
  | contents (buffers : List (String × String))
  | answered (answer : Session.Answer) (vault : Vault)

/-- Whether a logger is the package's or one below it. -/
def belongs (logger : String) : Bool :=
  logger == Log.package || (Log.package ++ ".").toList.isPrefixOf logger.toList

/-- The buffers with a text added to one of them. -/
def append (buffers : List (String × String)) (name text : String) : List (String × String) :=
  buffers.map fun b => if b.1 == name then (b.1, b.2 ++ text) else b

/-- The state with a record written, if it goes anywhere. -/
def write (st : State) (r : Log.Record) : State :=
  match st.destination? with
  | some name =>
    if belongs r.logger && Log.isWritten st.level r.level then
      { st with buffers := append st.buffers name (r.line st.session.time ++ "\n") }
    else st
  | none => st

/-- The state with a level and a new destination. -/
def configure (st : State) (buffer : String) (level : Int) : State :=
  { st with
    level := level
    destination? := some buffer
    created := st.created + 1
    buffers :=
      if (st.buffers.lookup buffer).isSome then st.buffers else st.buffers ++ [(buffer, "")] }

/-- Whether a step has a log of its own, as every command line has. -/
def hasOwnLog (s : Session.Step) : Bool :=
  match s.operation with
  | .command _ _ _ _ => true
  | _ => s.level?.isSome

/-- The state after an operation. One with a log of its own writes to no buffer and leaves nothing
configured. -/
def afterOperation (st : State) (s : Session.Step) (done : Session.Stepped) : State :=
  if hasOwnLog s then { st with session := done.state, level := 0, destination? := none }
  else (done.events.map Log.Event.record).foldl write { st with session := done.state }

def step (st : State) : Step → Reply × State
  | .configure buffer level =>
    let next := configure st buffer (level.getD Settings.default.logLevel)
    (.configured next.level st.created, next)
  | .log record =>
    let next := write st record
    (.contents next.buffers, next)
  | .run s =>
    let done := Session.step st.session s
    (.answered done.answer done.state.vault, afterOperation st s done)

def runAll (st : State) : List Step → List Reply
  | [] => []
  | s :: ss =>
    let first := step st s
    first.1 :: runAll first.2 ss

end SealedMetadata.Logbook
