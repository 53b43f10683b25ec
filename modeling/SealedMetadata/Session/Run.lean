import SealedMetadata.Session.BlobOperations
import SealedMetadata.Session.Describe
import SealedMetadata.Session.KeyOperations
import SealedMetadata.Session.ModelOperations
import SealedMetadata.Session.SecretOperations

/-!
Sessions: operations one after another on one vault and one random source. An operation that
fails stores nothing; what it drew stays drawn, and the vault is as the operation left it.
-/

namespace SealedMetadata.Session

/-- The state of a session. The time is what log lines show. -/
structure State where
  time : String
  vault : Vault
  names : Names
  source : RandomSource

/-- The state at the start of a session. -/
def State.start (time : String) (source : RandomSource) : State := ⟨time, .empty, [], source⟩

/-- An operation, the name for its result, and the level at which its events are written. -/
structure Step where
  operation : Operation
  name? : Option String
  level? : Option Int

/-- What a step answers: its reply or failure, the number of keys that it tried, and the lines
that it logged. -/
structure Answer where
  result : Except Failure Reply
  tried : Option Nat
  log : Option (List String)

/-- The reply to an operation. -/
def Operation.run (time : String) (names : Names) : Operation → Vaulted Reply
  | key o => o.run names
  | blob o => o.run names
  | secret query value => query.run names value
  | equal first second => do
    let a ← first.eval names
    let b ← second.eval names
    let v ← get
    return .ofValue (.bool (a.same v b))
  | credential o => o.run names
  | model o => o.run names
  | settings env => do
    let s ← Vaulted.perform (Action.ofExcept (Settings.ofEnvironment env))
    return .object (.settings s)
  | failure kind arguments => do
    let x ← arguments.evalValue names
    match x with
    | .list items =>
      let d ← Vaulted.inspect fun v => describeNamed v kind items
      return .description d
    | _ => Vaulted.fail .wrongType
  | command separators arguments answers env => do
    let r ← Vaulted.perform (Cli.run separators time arguments env answers)
    return .report r

/-- The answer of a reply: a search tells how many keys it tried, found or not. -/
def Answer.ofReply (reply : Reply) (log : Option (List String)) : Answer :=
  match reply with
  | .search tried (.ok o) => ⟨.ok (.object o), some tried, log⟩
  | .search tried (.error e) => ⟨.error e, some tried, log⟩
  | reply => ⟨.ok reply, none, log⟩

/-- The object that an answer may store. -/
def Answer.object? (a : Answer) : Option Object :=
  match a.result with
  | .ok (.object o) => some o
  | _ => none

/-- The names with the object of an answer under a name. -/
def store (names : Names) (name? : Option String) (a : Answer) : Names :=
  match name?, a.object? with
  | some name, some o => (name, o) :: names
  | _, _ => names

/-- What one step comes to: its answer, the events in it, and the state after it. -/
structure Stepped where
  answer : Answer
  events : List Log.Event
  state : State

/-- One step. It leaves the vault that its operation leaves, and one that fails stores nothing. -/
def step (st : State) (s : Step) : Stepped :=
  let (o, vault) := (s.operation.run st.time st.names).act st.vault st.source
  let log := s.level?.map fun level => Log.lines st.time level o.events
  match o.result with
  | .error e => ⟨⟨.error e, none, log⟩, o.events, { st with vault := vault, source := o.source }⟩
  | .ok reply =>
    let answer := Answer.ofReply reply log
    ⟨answer, o.events,
      { st with vault := vault, names := store st.names s.name? answer, source := o.source }⟩

/-- The answers of all steps, each with the vault that followed it, and the state at the end. -/
def runAll (st : State) : List Step → List (Answer × Vault) × State
  | [] => ([], st)
  | s :: ss =>
    let first := step st s
    let rest := runAll first.state ss
    ((first.answer, first.state.vault) :: rest.1, rest.2)

theorem state_runAll_append (st : State) (ss ts : List Step) :
    (runAll st (ss ++ ts)).2 = (runAll (runAll st ss).2 ts).2 := by
  induction ss generalizing st with
  | nil => rfl
  | cons s ss ih => exact ih (step st s).state

end SealedMetadata.Session
