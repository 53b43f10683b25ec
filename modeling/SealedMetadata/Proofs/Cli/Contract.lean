import SealedMetadata.Proofs.Blob.TextForm
import SealedMetadata.Proofs.Cli.Outcomes
import SealedMetadata.Proofs.Cli.Spelling

/-!
The contract of the command line. Each accepted command line ends with the status zero and its
output, or with the status one and the message of a failure, unless it meets a text that cannot be
encoded; and what one command line encrypts, another decrypts.
-/

namespace SealedMetadata.Cli

open Log (IsOneLine)

namespace Command

variable {settings : Settings} {secret : RawText} {c : Command} {r : RandomSource}

theorem isOneLine_empty : IsOneLine "" := by
  decide

theorem isOneLine_encryption {size : Nat} {requested : RequestedVersion} {e : Log.Event}
    (he : e ∈ (Blob.encryptionOf size requested).events none) : IsOneLine e.outerText := by
  rw [Blob.encryptionOf] at he
  cases hv : (Version.ofRequest requested).toOption with
  | none =>
    rw [hv] at he
    exact absurd he List.not_mem_nil
  | some v =>
    rw [hv] at he
    rw [List.mem_singleton.mp he]
    exact isOneLine_empty

theorem isOneLine_fieldDecryption {field : Bytes} {e : Log.Event}
    (he : e ∈ (Blob.fieldDecryptionOf field).events none) : IsOneLine e.outerText := by
  rw [Blob.fieldDecryptionOf] at he
  cases hblob : Blob.ofField field with
  | error e' =>
    rw [hblob] at he
    exact absurd he List.not_mem_nil
  | ok blob =>
    rw [hblob] at he
    dsimp only [Blob.decryptionOf, Log.Subject.events] at he
    cases hv : (Blob.sniff blob).toOption with
    | none =>
      rw [hv] at he
      exact absurd he List.not_mem_nil
    | some v =>
      rw [hv] at he
      rw [List.mem_singleton.mp he]
      exact isOneLine_empty

/-- The texts in the events of a command that gave its output are each one line. -/
theorem isOneLine_outerText (hshows : c.ShowsItsNumber) (hworks : c.Works settings secret r) :
    ∀ e ∈ c.events settings none, IsOneLine e.outerText := by
  intro e he
  rw [events, List.append_nil] at he
  cases c with
  | encrypt data key version =>
    rw [subject] at he
    split at he
    · exact isOneLine_encryption he
    · exact absurd he List.not_mem_nil
  | decrypt data key =>
    rw [subject] at he
    split at he
    · exact isOneLine_fieldDecryption he
    · exact absurd he List.not_mem_nil
  | loginHash authVersion salt password showMasterKey =>
    rw [List.mem_singleton.mp he]
    -- credentials were derived, so that their version is one of two numbers
    rcases hworks with hone | ⟨htwo, -⟩
    · rw [hshows 1 hone]
      decide
    · rw [hshows 2 htwo]
      decide
  | linkHash password => exact absurd he List.not_mem_nil

end Command

/-- A line that tells of a failure. -/
def IsErrorLine (line : String) : Prop := "error: ".toList <+: line.toList

theorem not_isErrorLine_line (time : String) (e : Log.Event) :
    ¬ IsErrorLine (e.record.line time) := by
  have hfirst : (e.record.line time).toList.head? = some '[' := by
    simp only [Log.Record.line, String.append_assoc, String.toList_append]
    rfl
  rintro ⟨rest, hrest⟩
  rw [← hrest] at hfirst
  cases hfirst

section Conclusion

variable (time : String) (settings : Settings) (i : Invocation) (secret : RawText)
  (r : RandomSource) (run : Run)

/-- A run that ended with an output. -/
structure Run.Gives : Prop where
  exit : run.exit = 0
  stdout : ∃ output, ((i.command.carryOut settings secret).act .empty r).1.result = .ok output ∧
    i.command.Prints settings secret r output ∧ run.stdout = output ++ "\n"
  stderr : run.stderr = unlines (logLines time settings i none)
  no_error : IsOneLine time → ∀ line ∈ logLines time settings i none, ¬ IsErrorLine line

/-- A run that ended with a failure. -/
structure Run.Tells : Prop where
  exit : run.exit = 1
  stdout : run.stdout = ""
  stderr : ∃ e message, ((i.command.carryOut settings secret).act .empty r).1.result = .error e ∧
    e.message? = some message ∧
    run.stderr = unlines (logLines time settings i (some e.kind)) ++ "error: " ++ message ++ "\n"

/-- How a run concludes: with an output if and only if its command works. Nothing is left in the
buffers that it made. -/
structure Run.Concludes : Prop where
  of_works : i.command.Works settings secret r → run.Gives time settings i secret r
  of_not_works : ¬ i.command.Works settings secret r → run.Tells time settings i secret r
  asked : run.asked = i.command.asks
  emptied : ∀ s, ((i.command.carryOut settings secret).left .empty r).content s = []

end Conclusion

theorem content_empty (s : Sealed) : Vault.empty.content s = [] := by
  simp [Vault.empty, Vault.content]

/-- With settings and a secret, a run reports the outcome of its command, or fails where that
cannot be done. -/
theorem runWith_concludes {i : Invocation} {answers : List RawText} {secret : RawText}
    (hsecret : i.command.secretFrom answers = some secret) (hshows : i.command.ShowsItsNumber)
    (time : String) (settings : Settings) (r : RandomSource) :
    (i.command.MeetsUnencodable settings secret →
      ((runWith time settings i answers).run r).result = .error .unencodable) ∧
    (¬ i.command.MeetsUnencodable settings secret →
      ∃ run, ((runWith time settings i answers).run r).result = .ok run ∧
        run.Concludes time settings i secret r) := by
  have hemptied (s : Sealed) :
      ((i.command.carryOut settings secret).left .empty r).content s = [] :=
    (Command.content_carryOut settings secret i.command .empty r s).trans (content_empty s)
  have hcomes := i.command.comesTo_perform settings secret r
  generalize houtcome : ((i.command.perform settings secret).run r).result = outcome at hcomes
  cases hcomes with
  | unencodable hmeets =>
    exact ⟨fun _ => result_runWith_of_foreign hsecret houtcome rfl time,
      fun hfine => absurd hmeets hfine⟩
  | @output output hfine hworks hprints =>
    have hlines := Command.isOneLine_outerText hshows hworks
    have hgives : Run.Gives time settings i secret r
        ⟨0, output ++ "\n", logOf time settings i none, i.command.asks⟩ := {
      exit := rfl
      stdout := ⟨output, houtcome, hprints, rfl⟩
      stderr := rfl
      no_error := by
        intro htime line hline
        obtain ⟨e, -, rfl⟩ := Log.exists_event_of_mem_lines htime hlines hline
        exact not_isErrorLine_line time e }
    exact ⟨fun hmeets => absurd hmeets hfine, fun _ =>
      ⟨_, result_runWith_of_ok hsecret houtcome time, fun _ => hgives,
        fun hrefused => absurd hworks hrefused, rfl, hemptied⟩⟩
  | @failure e hfine hrefused hown =>
    obtain ⟨message, hmessage⟩ := e.exists_message hown
    have htells : Run.Tells time settings i secret r
        ⟨1, "", logOf time settings i (some e.kind) ++ errorLine e, i.command.asks⟩ := {
      exit := rfl
      stdout := rfl
      stderr := by
        refine ⟨e, message, houtcome, hmessage, ?_⟩
        rw [errorLine, hmessage, logOf]
        simp only [Option.getD_some, String.append_assoc] }
    exact ⟨fun hmeets => absurd hmeets hfine, fun _ =>
      ⟨_, result_runWith_of_error hsecret houtcome hown time, fun hworks => absurd hworks hrefused,
        fun _ => htells, rfl, hemptied⟩⟩

section Run

variable {separators : Separators} {time : String} {args : List RawText} {i : Invocation}

/-- Without settings a command line asks for nothing and draws nothing. -/
theorem run_of_settings_error (hi : Invocation.ofArguments separators args = .ok i)
    {env : Settings.Environment} {e : Failure} (h : Settings.ofEnvironment env = .error e)
    (answers : List RawText) (r : RandomSource) :
    (run separators time args env answers).run r =
      ⟨.ok (.ran ⟨1, "", errorLine e, []⟩), [], r⟩ := by
  rw [run, hi, h]
  rfl

theorem result_run (hi : Invocation.ofArguments separators args = .ok i)
    {env : Settings.Environment} {settings : Settings}
    (hsettings : Settings.ofEnvironment env = .ok settings) (answers : List RawText)
    (r : RandomSource) :
    ((run separators time args env answers).run r).result =
      ((runWith time settings i answers).run r).result.map Report.ran := by
  rw [run, hi, hsettings]
  change ((Report.ran <$> runWith time settings i answers).run r).result = _
  rw [← bind_pure_comp, Action.result_bind]
  cases ((runWith time settings i answers).run r).result <;> rfl

end Run

/-- What is promised of a command line that names an invocation. -/
structure KeepsContract (separators : Separators) (time : String) (args : List RawText)
    (i : Invocation) : Prop where
  without_settings : ∀ env e, Settings.ofEnvironment env = .error e →
    ∃ message, e.message? = some message ∧ ∀ answers r,
      (run separators time args env answers).run r =
        ⟨.ok (.ran ⟨1, "", "error: " ++ message ++ "\n", []⟩), [], r⟩
  with_settings : ∀ env settings, Settings.ofEnvironment env = .ok settings →
    ∀ answers secret, i.command.secretFrom answers = some secret → ∀ r,
      (¬ i.command.MeetsUnencodable settings secret →
        ∃ done, ((run separators time args env answers).run r).result = .ok (.ran done) ∧
          done.Concludes time settings i secret r) ∧
      (i.command.MeetsUnencodable settings secret →
        ((run separators time args env answers).run r).result = .error .unencodable)
  reads : ∃ before after, args = before ++ .ofString i.command.name :: after ∧
    i.command.ReadsFrom after ∧
    (i.command.IsGivenIn after → i.command.asks = []) ∧
    (¬ i.command.IsGivenIn after → i.command.asks = [i.command.question])

theorem keepsContract {separators : Separators} {args : List RawText} {i : Invocation}
    (h : Invocation.ofArguments separators args = .ok i) (time : String) :
    KeepsContract separators time args i := by
  obtain ⟨before, after, hargs, hreads⟩ := Invocation.ofArguments_spec h
  constructor
  · intro env e he
    obtain ⟨why, rfl⟩ := Settings.exists_of_ofEnvironment_error he
    exact ⟨why.message, rfl, fun answers r => run_of_settings_error h he answers r⟩
  · intro env settings hsettings answers secret hsecret r
    obtain ⟨hfails, hconcludes⟩ := runWith_concludes hsecret hreads.number time settings r
    rw [result_run h hsettings]
    constructor
    · intro hfine
      obtain ⟨done, hdone, hdoneConcludes⟩ := hconcludes hfine
      rw [hdone]
      exact ⟨done, rfl, hdoneConcludes⟩
    · intro hmeets
      rw [hfails hmeets]
      rfl
  · refine ⟨before, after, hargs, hreads, ?_, ?_⟩
    · intro hgiven
      cases hnone : i.command.flag? with
      | none => exact absurd hgiven (hreads.secret.mp hnone)
      | some s =>
        rw [Command.asks, hnone]
        rfl
    · intro hgiven
      rw [Command.asks, hreads.secret.mpr hgiven]
      rfl

/-- A command line prints a text, and nothing else but its line end. -/
def PrintsText (separators : Separators) (time : String) (args : List RawText)
    (env : Settings.Environment) (answers : List RawText) (r : RandomSource) (text : String) :
    Prop :=
  ∃ done, ((run separators time args env answers).run r).result = .ok (.ran done) ∧
    done.exit = 0 ∧ done.stdout = text ++ "\n"

/-- A command line, with what it finds around it, encrypts a text in a version. -/
def Encrypts (separators : Separators) (args : List RawText) (env : Settings.Environment)
    (answers : List RawText) (data secret : RawText) (v : Version) : Prop :=
  ∃ verbose key version settings,
    Invocation.ofArguments separators args = .ok ⟨verbose, .encrypt data key version⟩ ∧
    Settings.ofEnvironment env = .ok settings ∧
    (Command.encrypt data key version).secretFrom answers = some secret ∧
    Version.ofRequest (version.getD settings.metadataVersion.request) = .ok v

/-- A command line, with what it finds around it, decrypts a field. -/
def Decrypts (separators : Separators) (args : List RawText) (env : Settings.Environment)
    (answers : List RawText) (field secret : RawText) : Prop :=
  ∃ verbose key settings,
    Invocation.ofArguments separators args = .ok ⟨verbose, .decrypt field key⟩ ∧
    Settings.ofEnvironment env = .ok settings ∧
    (Command.decrypt field key).secretFrom answers = some secret

section RoundTrip

variable {separators : Separators} {args : List RawText} {env : Settings.Environment}
  {answers : List RawText}

theorem printsText_of_perform {i : Invocation} {settings : Settings} {secret : RawText}
    {text : String} {r : RandomSource} (hi : Invocation.ofArguments separators args = .ok i)
    (hsettings : Settings.ofEnvironment env = .ok settings)
    (hsecret : i.command.secretFrom answers = some secret)
    (h : ((i.command.perform settings secret).run r).result = .ok text) (time : String) :
    PrintsText separators time args env answers r text := by
  have hdone := result_runWith_of_ok hsecret h time
  refine ⟨⟨0, text ++ "\n", logOf time settings i none, i.command.asks⟩, ?_, rfl, rfl⟩
  rw [result_run hi hsettings, hdone]
  rfl

/-- What is encrypted with a secret on one command line is decrypted with it on all others. -/
theorem exists_field_of_encrypts {data secret : String} {v : Version}
    (h : Encrypts separators args env answers (.ofString data) (.ofString secret) v)
    (time : String) (r : RandomSource) :
    ∃ field, PrintsText separators time args env answers r field ∧
      ∀ separators' time' args' env' answers' r',
        Decrypts separators' args' env' answers' (.ofString field) (.ofString secret) →
          PrintsText separators' time' args' env' answers' r' data := by
  obtain ⟨verbose, key, version, settings, hi, hsettings, hsecret, hversion⟩ := h
  obtain ⟨field, hfield, -, hread⟩ :=
    Blob.exists_field_of_text hversion data (.text secret) r
  refine ⟨field, ?_, ?_⟩
  · apply printsText_of_perform hi hsettings hsecret
    rw [Command.perform_encrypt, RawText.secret_ofString, RawText.secret_ofString]
    exact hfield
  · rintro separators' time' args' env' answers' r'
      ⟨verbose', key', settings', hi', hsettings', hsecret'⟩
    apply printsText_of_perform hi' hsettings' hsecret'
    rw [Command.perform_decrypt, RawText.secret_ofString, RawText.secret_ofString]
    exact hread (.text secret) r' rfl

end RoundTrip

/-- A key on the command line, or as the answer to a question. -/
def Supplies (separators : Separators) (key : Option RawText) (answers : List RawText)
    (secret : RawText) : Prop :=
  key = some secret ∧ (separators = .dropped → secret ≠ separator) ∨
    key = none ∧ answers.head? = some secret

section Supplied

variable {separators : Separators} {key : Option RawText} {answers : List RawText}
  {secret : RawText} (h : Supplies separators key answers secret)

include h

theorem Supplies.attachable : Attachable separators key := by
  rcases h with ⟨rfl, hplain⟩ | ⟨rfl, -⟩
  · exact fun hdropped hkey => hplain hdropped (Option.some.inj hkey)
  · intro _ hkey
    cases hkey

theorem encrypts_encryptLine (data : RawText) (v : Version) {env : Settings.Environment}
    {settings : Settings} (hsettings : Settings.ofEnvironment env = .ok settings) :
    Encrypts separators (encryptLine data key v) env answers data secret v := by
  have hi := Invocation.ofArguments_encryptLine data h.attachable v
  refine ⟨false, key, some v.request, settings, hi, hsettings, ?_, v.ofRequest_request⟩
  rcases h with ⟨rfl, -⟩ | ⟨rfl, hanswer⟩
  · rfl
  · exact hanswer

theorem decrypts_decryptLine (field : RawText) {env : Settings.Environment} {settings : Settings}
    (hsettings : Settings.ofEnvironment env = .ok settings) :
    Decrypts separators (decryptLine field key) env answers field secret := by
  have hi := Invocation.ofArguments_decryptLine field h.attachable
  refine ⟨false, key, settings, hi, hsettings, ?_⟩
  rcases h with ⟨rfl, -⟩ | ⟨rfl, hanswer⟩
  · rfl
  · exact hanswer

end Supplied

/-- Each accepted command line keeps its contract, unless a text that it needs cannot be encoded,
and what one encrypts, each other decrypts that has the secret. There are such command lines for
every text and every key. -/
theorem command_line_contract (separators : Separators) (time : String) :
    (∀ args i, Invocation.ofArguments separators args = .ok i →
      KeepsContract separators time args i) ∧
    (∀ args env answers data secret v,
      Encrypts separators args env answers (.ofString data) (.ofString secret) v → ∀ r, ∃ field,
        PrintsText separators time args env answers r field ∧
        ∀ separators' time' args' env' answers' r',
          Decrypts separators' args' env' answers' (.ofString field) (.ofString secret) →
            PrintsText separators' time' args' env' answers' r' data) ∧
    ∀ key answers secret env settings, Supplies separators key answers secret →
      Settings.ofEnvironment env = .ok settings →
      (∀ data v, Encrypts separators (encryptLine data key v) env answers data secret v) ∧
      ∀ field, Decrypts separators (decryptLine field key) env answers field secret := by
  refine ⟨fun args i h => keepsContract h time, ?_, ?_⟩
  · intro args env answers data secret v hencrypts r
    exact exists_field_of_encrypts hencrypts time r
  · intro key answers secret env settings hsupplies hsettings
    constructor
    · exact fun data v => encrypts_encryptLine hsupplies data v hsettings
    · exact fun field => decrypts_decryptLine hsupplies field hsettings

/-- A command line without anything that is not UTF-8. -/
def plain (args : List String) : List RawText := args.map RawText.ofString

theorem contract_of_four_lines :
    (∃ message, ∀ r, (run .kept "00:00:00" (plain ["link-hash"])
        [("CLOUDMETA_METADATA_VERSION", "3")] []).run r =
      ⟨.ok (.ran ⟨1, "", "error: " ++ message ++ "\n", []⟩), [], r⟩) ∧
    (∃ done, ((run .kept "00:00:00" (plain ["encrypt", "--key=", "--version", "0", "x"]) []
      []).run (.cycle [])).result = .ok (.ran done) ∧ done.exit = 1 ∧ done.asked = []) ∧
    (∃ done, ((run .kept "00:00:00" (plain ["login-hash", "--auth-version", "1"]) []
        (plain ["p"])).run (.cycle [])).result = .ok (.ran done) ∧ done.exit = 0 ∧
      done.asked = ["Password: "]) ∧
    ∃ field, PrintsText .kept "00:00:00"
        (encryptLine (.ofString "x") (some (.ofString "k")) .gcm) [] [] (.cycle []) field ∧
      PrintsText .kept "00:00:00" (decryptLine (.ofString field) none) [] (plain ["k"])
        (.cycle []) "x" := by
  obtain ⟨hkeeps, hround, hlines⟩ := command_line_contract .kept "00:00:00"
  refine ⟨?_, ?_, ?_, ?_⟩
  · have hlink := hkeeps (plain ["link-hash"]) ⟨false, .linkHash none⟩ rfl
    obtain ⟨message, -, hrun⟩ := hlink.without_settings [("CLOUDMETA_METADATA_VERSION", "3")]
      (.invalidValue (.versionSetting "3")) rfl
    exact ⟨message, fun r => hrun [] r⟩
  · have hencrypt := hkeeps (plain ["encrypt", "--key=", "--version", "0", "x"])
      ⟨false, .encrypt (.ofString "x") (some []) (some (.ofInt 0))⟩ rfl
    have hfine : ¬ (Command.encrypt (.ofString "x") (some []) (some (.ofInt 0))).MeetsUnencodable
        .default [] := by
      rintro (h | ⟨-, h | h⟩) <;> cases h
    obtain ⟨done, hdone, hconcludes⟩ :=
      (hencrypt.with_settings [] .default rfl [] [] rfl (.cycle [])).1 hfine
    have hnot : ¬ (Command.encrypt (.ofString "x") (some []) (some (.ofInt 0))).Works .default []
        (.cycle []) := by
      rintro (h | h) <;> cases h
    exact ⟨done, hdone, (hconcludes.of_not_works hnot).exit, hconcludes.asked⟩
  · have hlogin := hkeeps (plain ["login-hash", "--auth-version", "1"])
      ⟨false, .loginHash (.ofInt 1) none none false⟩ rfl
    have hfine : ¬ (Command.loginHash (.ofInt 1) none none false).MeetsUnencodable .default
        (.ofString "p") := by
      rintro (⟨-, h⟩ | ⟨h, -⟩) <;> cases h
    obtain ⟨done, hdone, hconcludes⟩ :=
      (hlogin.with_settings [] .default rfl (plain ["p"]) (.ofString "p") rfl (.cycle [])).1 hfine
    exact ⟨done, hdone, (hconcludes.of_works (Or.inl rfl)).exit, hconcludes.asked⟩
  · have hflag : Supplies .kept (some (.ofString "k")) [] (.ofString "k") :=
      Or.inl ⟨rfl, fun h => by cases h⟩
    have hprompt : Supplies .kept none (plain ["k"]) (.ofString "k") := Or.inr ⟨rfl, rfl⟩
    have hencrypts := (hlines (some (.ofString "k")) [] (.ofString "k") [] .default hflag rfl).1
      (.ofString "x") .gcm
    obtain ⟨field, hfield, hread⟩ := hround _ _ _ _ _ _ hencrypts (.cycle [])
    have hdecrypts := (hlines none (plain ["k"]) (.ofString "k") [] .default hprompt rfl).2
      (.ofString field)
    exact ⟨field, hfield, hread _ _ _ _ _ _ hdecrypts⟩

/-- An argument of one byte that is no UTF-8. -/
def strayByte : RawText := [.surrogate 1279]

/-- Two command lines that are accepted and end in no status: a password and a text that cannot be
encoded, the text before its version is refused. -/
theorem stray_byte_ends_no_status :
    (∃ i, Invocation.ofArguments .kept (plain ["link-hash", "--password"] ++ [strayByte]) =
        .ok i ∧ i.command.asks = []) ∧
      ((run .kept "00:00:00" (plain ["link-hash", "--password"] ++ [strayByte]) [] []).run
        (.cycle [])).result = .error .unencodable ∧
      (∃ i, Invocation.ofArguments .kept
        (plain ["encrypt", "--key", "k", "--version", "3"] ++ [strayByte]) = .ok i ∧
          i.command.asks = []) ∧
      ((run .kept "00:00:00" (plain ["encrypt", "--key", "k", "--version", "3"] ++ [strayByte]) []
        []).run (.cycle [])).result = .error .unencodable :=
  ⟨⟨⟨false, .linkHash (some strayByte)⟩, rfl, rfl⟩, rfl,
    ⟨⟨false, .encrypt strayByte (some (.ofString "k")) (some (.ofInt 3))⟩, rfl, rfl⟩, rfl⟩

end SealedMetadata.Cli
