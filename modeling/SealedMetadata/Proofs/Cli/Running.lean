import SealedMetadata.Proofs.Cli.Sealing
import SealedMetadata.Proofs.Log.AccountEvents

/-!
What a run of the command line comes to, once its secret is known: the secret of its option, or
else the answer to its question. The log tells nothing of the secret.
-/

namespace SealedMetadata.Cli

open Log (Subject kind?)
open SealedMetadata.Action (LogsAs Silent)

namespace Command

/-- The secret that the command line gives, if it has the option for one. -/
def flag? : Command → Option RawText
  | encrypt _ key _ | decrypt _ key => key
  | loginHash _ _ password _ | linkHash password => password

/-- What is asked where the option is absent. -/
def question : Command → String
  | encrypt _ _ _ | decrypt _ _ => "Master key: "
  | loginHash _ _ _ _ => "Password: "
  | linkHash _ => "Link password: "

/-- What a command asks. -/
def asks (c : Command) : List String := if c.flag?.isSome then [] else [c.question]

/-- The secret that a command uses. An empty one in its option is one. -/
def secretFrom (c : Command) (answers : List RawText) : Option RawText :=
  match c.flag? with
  | some s => some s
  | none => answers.head?

theorem secret_eq (c : Command) : c.secret = match c.flag? with
    | some s => .inl s
    | none => .inr c.question := by
  cases c <;> rfl

/-- What a command is about. A text that cannot be encoded is not looked at. -/
def subject (settings : Settings) : Command → Subject
  | encrypt data _ version =>
    match data.text? with
    | some text => Blob.encryptionOf (Utf8.encode text).length
        (version.getD settings.metadataVersion.request)
    | none => .nothing
  | decrypt data _ =>
    match data.text? with
    | some text => Blob.fieldDecryptionOf (Utf8.encode text)
    | none => .nothing
  | loginHash authVersion _ _ _ => .derivation authVersion.shown
  | linkHash _ => .nothing

theorem logsAs_perform (settings : Settings) (secret : RawText) (c : Command) :
    (c.perform settings secret).LogsAs (c.subject settings) := by
  cases c with
  | encrypt data key version =>
    rw [perform_encrypt, RawText.secret, subject]
    cases data.text? with
    | some text => exact Blob.logsAs_encryptTextUnread (.text text) secret.secret _
    | none => exact fun r => rfl
  | decrypt data key =>
    rw [perform_decrypt, RawText.secret, subject]
    cases data.text? with
    | some text => exact Blob.logsAs_decryptTextUnread (.text text) secret.secret
    | none => exact fun r => rfl
  | loginHash authVersion salt password showMasterKey =>
    rw [perform_loginHash]
    exact (Credentials.logsAs_forVersionUnread authVersion _ _).bind_silent (fun o => rfl) _
  | linkHash password =>
    rw [perform_linkHash]
    exact Action.logsAs_nothing _

/-- The events of a command with an outcome. A failure is an event of its own. -/
def events (settings : Settings) (c : Command) (outcome : Option FailureKind) : List Log.Event :=
  (c.subject settings).events outcome ++
    match outcome with
    | some kind => [.commandFailed c.name kind]
    | none => []

end Command

/-- The log lines of a run with an outcome. -/
def logLines (time : String) (settings : Settings) (i : Invocation)
    (outcome : Option FailureKind) : List String :=
  Log.lines time (levelFor settings i) (i.command.events settings outcome)

/-- The log of a run with an outcome, as it is written. -/
def logOf (time : String) (settings : Settings) (i : Invocation) (outcome : Option FailureKind) :
    String :=
  unlines (logLines time settings i outcome)

/-- Cut at its line ends and put back line by line, a text has one more line end. -/
theorem unlines_split (cs : List Char) :
    unlines ((Text.split '\n' cs).map String.ofList) = String.ofList cs ++ "\n" := by
  have hall := Text.flatMap_append_bar '\n' (Text.split_ne_nil '\n' cs)
  rw [Text.join_split] at hall
  rw [← String.toList_inj, unlines, String.toList_join, List.map_map, List.flatMap_map,
    String.toList_append, String.toList_ofList]
  simp only [Function.comp_apply, String.toList_append, String.toList_ofList]
  exact hall

/-- The lines of events, put one after another, are their text. -/
theorem unlines_lines (time : String) (level : Int) (events : List Log.Event) :
    unlines (Log.lines time level events) =
      if Log.ShowsDetails level then Log.textOf time events else "" := by
  split
  next h =>
    rw [Log.lines_of_details h]
    induction events with
    | nil => rfl
    | cons e events ih =>
      have hfirst : unlines (e.lines time) = e.lineText time ++ "\n" := by
        rw [Log.Event.lines, unlines_split, String.ofList_toList, Log.Event.line_record]
      have hsplit : unlines (e.lines time ++ events.flatMap (Log.Event.lines time)) =
          unlines (e.lines time) ++ unlines (events.flatMap (Log.Event.lines time)) := by
        rw [unlines, List.map_append, String.join_append]
        rfl
      rw [List.flatMap_cons, hsplit, hfirst, ih, Log.textOf, Log.textOf, List.map_cons,
        String.join_cons]
  next h =>
    rw [Log.lines_of_no_details h]
    rfl

theorem logOf_eq (time : String) (settings : Settings) (i : Invocation)
    (outcome : Option FailureKind) : logOf time settings i outcome =
      if Log.ShowsDetails (levelFor settings i) then
        Log.textOf time (i.command.events settings outcome)
      else "" :=
  unlines_lines ..

/-- With its secret, a command line performs its command once and reports the outcome. -/
theorem run_runWith {i : Invocation} {answers : List RawText} {secret : RawText}
    (h : i.command.secretFrom answers = some secret) (time : String) (settings : Settings)
    (r : RandomSource) :
    let o := (i.command.perform settings secret).run r
    (runWith time settings i answers).run r = ⟨report time (levelFor settings i) i.command.name
      i.command.asks (o.result, o.events), [], o.source⟩ := by
  rw [Command.secretFrom] at h
  rw [runWith, Command.secret_eq, Command.asks]
  -- given or asked for, the secret goes to the same command
  cases hflag : i.command.flag? with
  | some s =>
    rw [hflag] at h
    cases h
    rfl
  | none =>
    rw [hflag] at h
    cases answers with
    | nil => cases h
    | cons answer rest =>
      cases h
      rfl

/-- A run whose command gave an output: it is on the standard output, with a line end. -/
theorem result_runWith_of_ok {settings : Settings} {i : Invocation} {answers : List RawText}
    {secret : RawText} {output : String} {r : RandomSource}
    (hsecret : i.command.secretFrom answers = some secret)
    (h : ((i.command.perform settings secret).run r).result = .ok output) (time : String) :
    ((runWith time settings i answers).run r).result =
      .ok ⟨0, output ++ "\n", logOf time settings i none, i.command.asks⟩ := by
  have hevents := i.command.logsAs_perform settings secret r
  rw [h] at hevents
  rw [run_runWith hsecret, report, h, hevents, logOf, logLines, Command.events,
    List.append_nil]
  rfl

/-- A run whose command met a failure of the library's own. -/
theorem result_runWith_of_error {settings : Settings} {i : Invocation} {answers : List RawText}
    {secret : RawText} {e : Failure} {r : RandomSource}
    (hsecret : i.command.secretFrom answers = some secret)
    (h : ((i.command.perform settings secret).run r).result = .error e)
    (hown : e.kind.isOwn = true) (time : String) :
    ((runWith time settings i answers).run r).result =
      .ok ⟨1, "", logOf time settings i (some e.kind) ++ errorLine e, i.command.asks⟩ := by
  have hevents := i.command.logsAs_perform settings secret r
  rw [h] at hevents
  rw [run_runWith hsecret, report, h, hevents]
  dsimp only
  rw [if_pos hown]
  rfl

/-- A run whose command met any other failure fails like it. -/
theorem result_runWith_of_foreign {settings : Settings} {i : Invocation} {answers : List RawText}
    {secret : RawText} {e : Failure} {r : RandomSource}
    (hsecret : i.command.secretFrom answers = some secret)
    (h : ((i.command.perform settings secret).run r).result = .error e)
    (hforeign : e.kind.isOwn = false) (time : String) :
    ((runWith time settings i answers).run r).result = .error e := by
  rw [run_runWith hsecret, report, h]
  dsimp only
  rw [hforeign]
  exact if_neg Bool.false_ne_true

/-- What a failure adds to the log: its line, which is no log line. -/
def failureText {α : Type} : Except Failure α → String
  | .ok _ => ""
  | .error e => errorLine e

/-- The standard error of a run is its log, and after that the line of its failure. -/
theorem stderr_runWith {time : String} {settings : Settings} {i : Invocation}
    {answers : List RawText} {secret : RawText} {r : RandomSource} {run : Run}
    (hsecret : i.command.secretFrom answers = some secret)
    (h : ((runWith time settings i answers).run r).result = .ok run) :
    run.stderr =
      logOf time settings i (kind? ((i.command.perform settings secret).run r).result) ++
        failureText ((i.command.perform settings secret).run r).result := by
  cases hresult : ((i.command.perform settings secret).run r).result with
  | ok output =>
    rw [result_runWith_of_ok hsecret hresult time] at h
    cases h
    exact (String.append_empty).symm
  | error e =>
    -- a failure of any other kind would have ended the run
    by_cases hown : e.kind.isOwn = true
    · rw [result_runWith_of_error hsecret hresult hown time] at h
      cases h
      rfl
    · rw [run_runWith hsecret, report, hresult] at h
      dsimp only at h
      rw [if_neg hown] at h
      cases h

end SealedMetadata.Cli
