import Mathlib.Data.List.Nodup
import SealedMetadata.Proofs.Cli.Running
import SealedMetadata.Proofs.Session.Logbooks

/-!
No secret gets into the log: of all that an operation works on, only lengths, versions and counts
do, and the kind of its outcome.
-/

namespace SealedMetadata

open Log (Subject kind?)

/-- The event with which a search tells what it found. -/
def Blob.foundEvents {α : Type} (search : Blob.Search α) : List Log.Event :=
  match search.result with
  | .ok _ => [.keyMatched search.tried]
  | .error _ => []

/-- What each part of the library logs. An encryption is announced once its version is accepted, a
decryption once the version of its blob is known, whichever the key; a search announces one for
each key that it tries, and then tells the place of the key that succeeded. -/
structure LogsAsListed : Prop where
  encrypt : ∀ text key requested salt r,
    ((Blob.encrypt text key requested salt).run r).events =
      match Version.ofRequest requested with
      | .ok v => [.encrypting text.length v]
      | .error _ => []
  encryptText : ∀ text key requested r,
    ((Blob.encryptText text key requested).run r).events =
      match Version.ofRequest requested with
      | .ok v => [.encrypting text.content.length v]
      | .error _ => []
  decrypt : ∀ blob key r, ((Blob.decrypt blob key).run r).events =
    match Blob.sniff blob with
    | .ok v => [.decrypting blob.length v]
    | .error _ => []
  decryptText : ∀ field key r, ((Blob.decryptText field key).run r).events =
    match Blob.ofField field.content with
    | .ok blob => ((Blob.decrypt blob key).run r).events
    | .error _ => []
  decryptWithAny : ∀ blob keys key r, ∃ search,
    ((Blob.decryptWithAny blob keys).run r).result = .ok search ∧
    ((Blob.decryptWithAny blob keys).run r).events =
      (List.replicate search.tried ((Blob.decrypt blob key).run r).events).flatten ++
        Blob.foundEvents search ∧
    ∀ text, search.result = .ok text → ∃ i winner, search.tried = i + 1 ∧
      keys[i]? = some winner ∧ ((Blob.decrypt blob winner).run r).result = .ok text
  decryptTextWithAny : ∀ field keys key r, ∃ search,
    ((Blob.decryptTextWithAny field keys).run r).result = .ok search ∧
    ((Blob.decryptTextWithAny field keys).run r).events =
      (List.replicate search.tried ((Blob.decryptText field key).run r).events).flatten ++
        Blob.foundEvents search ∧
    ∀ text, search.result = .ok text → ∃ i winner, search.tried = i + 1 ∧
      keys[i]? = some winner ∧ ((Blob.decryptText field winner).run r).result = .ok text
  masterKeys : ∀ (field key : Secret) r, field.content ≠ [] →
    ((MasterKeys.decrypt (some field) key).run r).events =
      ((Blob.decryptText field key).run r).events ++
        match ((MasterKeys.decrypt (some field) key).run r).result with
        | .ok keys => [.masterKeysRead keys.length]
        | .error _ => []
  privateKey : ∀ (field key : Secret) r, field.content ≠ [] →
    ((PrivateKey.decrypt (some field) key).run r).events =
      ((Blob.decryptText field key).run r).events
  credentials : ∀ version password salt r,
    ((Credentials.forVersion version password salt).run r).events = [.derivation version.shown]
  newLinkKey : ∀ masterKey requested r, ((Link.newKey masterKey requested).run r).events =
    match Version.ofRequest requested with
    | .ok v => [.encrypting 32 v]
    | .error _ => []
  linkPassword : ∀ password r, ((Link.hashPassword password).run r).events = []

theorem Blob.events_encryptionOf (size : Nat) (requested : RequestedVersion)
    (outcome : Option FailureKind) : (encryptionOf size requested).events outcome =
      match Version.ofRequest requested with
      | .ok v => [.encrypting size v]
      | .error _ => [] := by
  rw [encryptionOf]
  cases Version.ofRequest requested <;> rfl

theorem Blob.events_decryptionOf (blob : Bytes) (outcome : Option FailureKind) :
    (decryptionOf blob).events outcome =
      match sniff blob with
      | .ok v => [.decrypting blob.length v]
      | .error _ => [] := by
  rw [decryptionOf]
  cases sniff blob <;> rfl

/-- A search announces the same for each key that it tries, and then what it found. -/
theorem Blob.exists_search {α : Type} {tryKey : Secret → Action α}
    {answer : Secret → Except Failure α} (h : Answers tryKey answer) {key : Secret}
    {r : RandomSource}
    (hevents : ∀ key' r', ((tryKey key').run r').events = ((tryKey key).run r).events)
    (keys : List Secret) :
    ∃ search, ((searchFrom tryKey 0 keys).run r).result = .ok search ∧
      ((searchFrom tryKey 0 keys).run r).events =
        (List.replicate search.tried ((tryKey key).run r).events).flatten ++
          foundEvents search ∧
      ∀ a, search.result = .ok a → ∃ i winner, search.tried = i + 1 ∧ keys[i]? = some winner ∧
        ((tryKey winner).run r).result = .ok a := by
  refine ⟨_, result_searchFrom h 0 keys r, ?_, ?_⟩
  · rw [events_searchFrom h hevents 0 keys r, foundEvents]
    cases (Search.ofAnswers answer 0 keys).result <;> rfl
  · intro a ha
    -- a key answers in a search as it does alone
    obtain ⟨i, winner, htried, hwinner, hanswer⟩ := Search.exists_last_of_ok ha
    obtain ⟨events, hrun⟩ := h winner r
    refine ⟨i, winner, htried, hwinner, ?_⟩
    rw [hrun]
    exact hanswer

theorem logsAsListed : LogsAsListed where
  encrypt text key requested salt r :=
    (Blob.logsAs_encrypt text key requested salt r).trans (Blob.events_encryptionOf _ _ _)
  encryptText text key requested r :=
    (Blob.logsAs_encryptText text key requested r).trans (Blob.events_encryptionOf _ _ _)
  decrypt blob key r := (Blob.logsAs_decrypt blob key r).trans (Blob.events_decryptionOf _ _)
  decryptText field key r := by
    rw [Blob.logsAs_decryptText field key r, Blob.fieldDecryptionOf]
    cases Blob.ofField field.content with
    | error e => rfl
    | ok blob => exact (Blob.logsAs_decrypt blob key r).symm
  decryptWithAny blob keys key r := by
    apply Blob.exists_search (Blob.answers_decrypt blob)
    intro key' r'
    exact (Blob.logsAs_decrypt blob key' r').trans (Blob.logsAs_decrypt blob key r).symm
  decryptTextWithAny field keys key r := by
    have hsteady := Blob.isSteady_fieldDecryptionOf field.content
    apply Blob.exists_search (Blob.answers_decryptText field)
    intro key' r'
    rw [Blob.logsAs_decryptText field key' r', Blob.logsAs_decryptText field key r, hsteady,
      ← hsteady]
  masterKeys field key r hfield := by
    have hthere : field.isEmpty = false := Bool.eq_false_iff.mpr (mt Secret.isEmpty_iff.mp hfield)
    rw [MasterKeys.decrypt_some hthere, Action.events_bind, Action.result_bind]
    cases ((Blob.decryptText field key).run r).result with
    | error e => exact (List.append_nil _).symm
    | ok text => rfl
  privateKey field key r hfield := by
    have hthere : field.isEmpty = false := Bool.eq_false_iff.mpr (mt Secret.isEmpty_iff.mp hfield)
    rw [PrivateKey.decrypt_some hthere, Action.events_bind]
    cases ((Blob.decryptText field key).run r).result with
    | error e => rfl
    | ok text => exact List.append_nil _
  credentials version password salt r := Credentials.logsAs_forVersion version password salt r
  newLinkKey masterKey requested r :=
    (Link.logsAs_newKey masterKey requested r).trans (Blob.events_encryptionOf _ _ _)
  linkPassword password r := Action.Silent.silent r

/-- How events are shown. They are at the levels from one to ten and below zero, one line for each
event whose texts have no line ends; a step that has a log of its own shows its events there. -/
structure Log.ShownAsLines : Prop where
  shown : ∀ time level events, Log.lines time level events =
    if level ≤ 10 ∧ level ≠ 0 then events.flatMap (Event.lines time) else []
  line : ∀ time e, IsOneLine time → IsOneLine e.outerText →
    Event.lines time e = [e.lineText time]
  step : ∀ st s, (Session.step st s).answer.log =
    s.level?.map fun level => Log.lines st.time level (Session.step st s).events

theorem Log.shownAsLines : ShownAsLines where
  shown time level events := by
    by_cases hlevel : ShowsDetails level
    · rw [lines_of_details hlevel]
      exact (if_pos hlevel).symm
    · rw [lines_of_no_details hlevel]
      exact (if_neg hlevel).symm
  line time e htime htext := by
    rw [Event.lines_of_isOneLine htime (Event.isOneLine_message htext), Event.line_record]
  step := Session.log_step

/-- How events get into buffers. Configuring the log makes one buffer the destination, and there is
always exactly one of its name. There the text of all events of a run is added behind what was in
it, and nowhere else. -/
structure Logbook.KeptAsText : Prop where
  configured : ∀ st buffer level,
    let next := (Logbook.step st (.configure buffer level)).2
    next.destination? = some buffer ∧ next.level = level.getD 20
  destination : ∀ session ss name, (Logbook.after (.start session) ss).destination? = some name →
    ((Logbook.after (.start session) ss).buffers.map Prod.fst).count name = 1
  run : ∀ (st : Logbook.State) name ss, st.destination? = some name →
    (∀ s ∈ ss, Logbook.hasOwnLog s = false) →
    (Logbook.after st (ss.map .run)).buffers = st.buffers.map fun b =>
      if b.1 = name ∧ st.level ≤ 10 ∧ st.level ≠ 0 then
        (b.1, b.2 ++ Log.textOf st.session.time (Session.eventsOf st.session ss))
      else b

theorem Logbook.keptAsText : KeptAsText where
  configured _ _ _ := ⟨rfl, rfl⟩
  destination session ss name hname := by
    have htidy := tidy_after session ss
    exact List.count_eq_one_of_mem htidy.nodup (htidy.destination_mem name hname)
  run st name ss hname hlog := by
    rw [buffers_after hname hlog, State.withEvents]
    by_cases hlevel : Log.ShowsDetails st.level
    · have hshown (b : String × String) : b.1 = name ↔ b.1 = name ∧ st.level ≤ 10 ∧ st.level ≠ 0 :=
        (and_iff_left hlevel).symm
      simp only [if_pos hlevel, append, beq_iff_eq, ← hshown]
    · have hhidden (b : String × String) : ¬ (b.1 = name ∧ st.level ≤ 10 ∧ st.level ≠ 0) :=
        fun h => hlevel h.2
      simp only [if_neg hlevel, if_neg (hhidden _), List.map_id']

/-- The log carries no secret. Each part of the library logs what is listed for it, and that is
shown and kept as lines with lengths, versions and counts in digits. The events of each step of a
session follow from what is public about it, so two runs that look the same in public log the same
lines. The same holds of logbooks, and of the log on the standard error of the command line. -/
theorem Session.log_tells_no_secrets :
    LogsAsListed ∧ Log.ShownAsLines ∧ Logbook.KeptAsText ∧
    (∀ st s, (step st s).events = (subjectOf st s).events (step st s).answer.outcome) ∧
    (∀ st st' ss ss', st.time = st'.time → views st ss = views st' ss' →
      logs st ss = logs st' ss') ∧
    (∀ st st' ss ss', Logbook.Alike st st' → Logbook.views st ss = Logbook.views st' ss' →
      (Logbook.after st ss).buffers = (Logbook.after st' ss').buffers) ∧
    (∀ time settings settings' (i i' : Cli.Invocation) answers answers' secret secret' r r' run
        run',
      i.command.secretFrom answers = some secret →
      i'.command.secretFrom answers' = some secret' →
      ((Cli.runWith time settings i answers).run r).result = .ok run →
      ((Cli.runWith time settings' i' answers').run r').result = .ok run' →
      let o := ((i.command.perform settings secret).run r).result
      let o' := ((i'.command.perform settings' secret').run r').result
      let level := Cli.levelFor settings i
      let log := if level ≤ 10 ∧ level ≠ 0 then
        Log.textOf time (i.command.events settings (kind? o)) else ""
      level = Cli.levelFor settings' i' → i.command.name = i'.command.name →
      i.command.subject settings = i'.command.subject settings' → kind? o = kind? o' →
      run.stderr = log ++ Cli.failureText o ∧ run'.stderr = log ++ Cli.failureText o') := by
  refine ⟨logsAsListed, Log.shownAsLines, Logbook.keptAsText, events_step, ?_, ?_, ?_⟩
  · intro st st' ss ss' htime hviews
    exact logs_congr htime hviews
  · intro st st' ss ss' halike hviews
    exact (halike.after hviews).buffers
  · intro time settings settings' i i' answers answers' secret secret' r r' run run' hsecret
      hsecret' hrun hrun' o o' level log hlevel hname hsubject hkind
    have hlog : Cli.logOf time settings i (kind? o) = log := Cli.logOf_eq ..
    have hlog' : Cli.logOf time settings' i' (kind? o') = log := by
      rw [← hlog]
      simp only [Cli.logOf, Cli.logLines, Cli.Command.events, hlevel, level, hname, hsubject, hkind]
    rw [Cli.stderr_runWith hsecret hrun, Cli.stderr_runWith hsecret' hrun']
    exact ⟨congrArg (· ++ Cli.failureText o) hlog, congrArg (· ++ Cli.failureText o') hlog'⟩

/-- A text is encrypted and a blob tried under two keys, credentials are derived, and a version is
refused. -/
def Session.stepsWith (text : Bytes) (old new : String) (level? : Option Int) : List Step :=
  let data := Arg.value (.bytes text)
  let key := Arg.value (.text new)
  let blob := Arg.value (.bytes ([48, 48, 50] ++ List.replicate 13 33))
  [⟨.blob (.encrypt data key (.value (.int 2)) none), some "blob", level?⟩,
    ⟨.blob (.decryptWithAny blob (.value (.list [.text old, .text new]))), none, level?⟩,
    ⟨.credential (.forVersion (.value (.int 1)) key none), none, level?⟩,
    ⟨.blob (.encrypt data key (.value (.int 3)) none), none, level?⟩]

/-- What is public about these steps. -/
def Session.viewsOfStepsWith : List View :=
  [⟨.encryption 3 (some .gcm), none⟩, ⟨.search 16 (some .gcm) 2, some .allKeysFailed⟩,
    ⟨.derivation "1", none⟩, ⟨.encryption 3 none, some .unsupportedVersion⟩]

/-- What they leave in a buffer. -/
def Session.textOfStepsWith : String :=
  "[12:00:00] DEBUG cloudmeta.security.crypto: Encrypting 3 bytes of metadata as version 2\n" ++
  "[12:00:00] DEBUG cloudmeta.security.crypto: Decrypting 16 bytes of version 2 metadata\n" ++
  "[12:00:00] DEBUG cloudmeta.security.crypto: Decrypting 16 bytes of version 2 metadata\n" ++
  "[12:00:00] DEBUG cloudmeta.security.credentials: " ++
    "Deriving login credentials for auth version 1\n"

/-- A command line whose version is refused, with a text and a key. -/
def Cli.refusedWith (text key : String) : Cli.Invocation :=
  ⟨true, .encrypt (.ofString text) (some (.ofString key)) (some (.ofInt 3))⟩

/-- What it leaves on the standard error. -/
def Cli.textOfRefusal : String :=
  "[12:00:00] DEBUG cloudmeta.cli: encrypt failed: UnsupportedVersionError\n" ++
    "error: Unsupported version: 3\n"

/-- Other texts, keys and random bytes leave the same lines, in sessions, in logbooks and on the
command line. -/
theorem Session.same_log_with_other_secrets :
    let first := State.start "12:00:00" (.cycle [1])
    let second := State.start "12:00:00" (.cycle [7, 8])
    logs first (stepsWith [1, 2, 3] "a" "bc" (some 10)) =
      logs second (stepsWith [9, 9, 9] "q" "rst" (some 10)) ∧
    (Logbook.after (.start first) (.configure "file" (some 10) ::
        (stepsWith [1, 2, 3] "a" "bc" none).map .run)).buffers =
      (Logbook.after (.start second) (.configure "file" (some 10) ::
        (stepsWith [9, 9, 9] "q" "rst" none).map .run)).buffers ∧
    (Logbook.after ⟨first, 10, some "file", 1, [("file", "")]⟩
        ((stepsWith [1, 2, 3] "a" "bc" none).map .run)).buffers = [("file", textOfStepsWith)] ∧
    (∃ run run',
      ((Cli.runWith "12:00:00" .default (Cli.refusedWith "ab" "x") []).run (.cycle [1])).result =
        .ok run ∧
      ((Cli.runWith "12:00:00" .default (Cli.refusedWith "yz" "") []).run (.cycle [7])).result =
        .ok run' ∧
      run.stderr = Cli.textOfRefusal ∧ run'.stderr = Cli.textOfRefusal) ∧
    Log.Event.lines "12:00:00" (.keyMatched 12) =
      ["[12:00:00] DEBUG cloudmeta.security.metadata: Metadata decrypted with master key #12"] ∧
    ((MasterKeys.decrypt (some (.text "x")) (.text "key")).run (.cycle [])).events =
      ((Blob.decryptText (.text "x") (.text "key")).run (.cycle [])).events := by
  intro first second
  obtain ⟨hlisted, hshown, hkept, -, hruns, hlogbooks, hcommands⟩ := log_tells_no_secrets
  refine ⟨?_, ?_, ?_, ?_, ?_, ?_⟩
  · have hviews : views first (stepsWith [1, 2, 3] "a" "bc" (some 10)) =
        viewsOfStepsWith.map fun v => (some 10, v) := by rfl
    have hviews' : views second (stepsWith [9, 9, 9] "q" "rst" (some 10)) =
        viewsOfStepsWith.map fun v => (some 10, v) := by rfl
    exact hruns first second _ _ rfl (hviews.trans hviews'.symm)
  · have hbefore : Logbook.Alike (.start first) (.start second) := ⟨rfl, rfl, rfl, rfl⟩
    have hviews : Logbook.views (.start first) (.configure "file" (some 10) ::
        (stepsWith [1, 2, 3] "a" "bc" none).map .run) =
        .configured "file" (some 10) :: viewsOfStepsWith.map (.ran false) := by rfl
    have hviews' : Logbook.views (.start second) (.configure "file" (some 10) ::
        (stepsWith [9, 9, 9] "q" "rst" none).map .run) =
        .configured "file" (some 10) :: viewsOfStepsWith.map (.ran false) := by rfl
    exact hlogbooks _ _ _ _ hbefore (hviews.trans hviews'.symm)
  · have hevents : eventsOf first (stepsWith [1, 2, 3] "a" "bc" none) =
        [.encrypting 3 .gcm, .decrypting 16 .gcm, .decrypting 16 .gcm, .derivation "1"] := by rfl
    rw [hkept.run _ "file" _ rfl (by decide), hevents]
    decide +kernel
  · have hrun : ∃ run, ((Cli.runWith "12:00:00" .default (Cli.refusedWith "ab" "x") []).run
        (.cycle [1])).result = .ok run := ⟨_, by rfl⟩
    have hrun' : ∃ run, ((Cli.runWith "12:00:00" .default (Cli.refusedWith "yz" "") []).run
        (.cycle [7])).result = .ok run := ⟨_, by rfl⟩
    obtain ⟨run, hrun⟩ := hrun
    obtain ⟨run', hrun'⟩ := hrun'
    have hlog := hcommands "12:00:00" .default .default (Cli.refusedWith "ab" "x")
      (Cli.refusedWith "yz" "") [] [] (.ofString "x") (.ofString "") (.cycle [1]) (.cycle [7]) run
      run' rfl rfl hrun hrun' rfl rfl rfl rfl
    have htext : Cli.textOfRefusal =
        Log.textOf "12:00:00" [.commandFailed "encrypt" .unsupportedVersion] ++
          Cli.errorLine (.unsupportedVersion "3") := by decide
    rw [htext]
    exact ⟨run, run', hrun, hrun', hlog⟩
  · exact hshown.line "12:00:00" (.keyMatched 12) (by decide) (by decide)
  · exact hlisted.masterKeys (.text "x") (.text "key") (.cycle []) (by decide)

end SealedMetadata
