import SealedMetadata.Proofs.Blob.FieldSearch
import SealedMetadata.Proofs.Log.Lines
import SealedMetadata.Proofs.Random.Draws

/-!
What encryptions, decryptions and searches among keys log. Each is about something that can be
told in public: how long a text or a blob is, in which version, how many keys were tried. From
this and the kind of the outcome its events follow.
-/

namespace SealedMetadata

namespace Log

/-- What is asked of the library, as far as its log may tell. A version is absent where it was
refused or cannot be read off the blob. -/
inductive Subject
  | nothing
  | encryption (size : Nat) (version : Option Version)
  | decryption (size : Nat) (version : Option Version)
  | search (size : Nat) (version : Option Version) (tried : Nat)
  | masterKeys (size : Nat) (version : Option Version) (count : Nat)
  | derivation (authVersion : String)
  deriving DecidableEq

/-- The event of a decryption, once its version is known. -/
def decryptionEvents (size : Nat) : Option Version → List Event
  | some v => [.decrypting size v]
  | none => []

/-- The events that a subject leaves with an outcome, absent for a success. -/
def Subject.events (outcome : Option FailureKind) : Subject → List Event
  | nothing => []
  | encryption size (some v) => [.encrypting size v]
  | encryption _ none => []
  | decryption size version => decryptionEvents size version
  | search size version tried =>
    (List.replicate tried (decryptionEvents size version)).flatten ++
      if outcome = none then [.keyMatched tried] else []
  | masterKeys size version count =>
    decryptionEvents size version ++ if outcome = none then [.masterKeysRead count] else []
  | derivation authVersion => [.derivation authVersion]

/-- A subject whose events are the same with each outcome. -/
def Subject.IsSteady (s : Subject) : Prop := ∀ o, s.events o = s.events none

/-- The kind of an outcome, absent for a success. -/
def kind? {α : Type} : Except Failure α → Option FailureKind
  | .ok _ => none
  | .error e => some e.kind

end Log

open Log (Subject kind?)

namespace Action

variable {α β : Type}

/-- An action that logs nothing. -/
class Silent (x : Action α) : Prop where
  silent : ∀ r, (x.run r).events = []

/-- An action that leaves the events of a subject. -/
def LogsAs (x : Action α) (s : Subject) : Prop :=
  ∀ r, (x.run r).events = s.events (kind? (x.run r).result)

theorem events_bind (x : Action α) (f : α → Action β) (r : RandomSource) :
    ((x >>= f).run r).events = match (x.run r).result with
      | .error _ => (x.run r).events
      | .ok a => (x.run r).events ++ ((f a).run (x.run r).source).events := by
  rw [run_bind]
  cases (x.run r).result <;> rfl

instance (a : α) : Silent (pure a : Action α) := ⟨fun _ => rfl⟩

instance (e : Failure) : Silent (fail e : Action α) := ⟨fun _ => rfl⟩

instance (count : Nat) : Silent (draw count) := ⟨fun _ => rfl⟩

instance (x : Except Failure α) : Silent (ofExcept x) := ⟨fun _ => rfl⟩

instance (x : Action α) (f : α → Action β) [hx : Silent x] [hf : ∀ a, Silent (f a)] :
    Silent (x >>= f) := by
  refine ⟨fun r => ?_⟩
  rw [events_bind, hx.silent]
  cases (x.run r).result with
  | error e => rfl
  | ok a => exact (hf a).silent _

instance (f : α → β) (x : Action α) [hx : Silent x] : Silent (f <$> x) := by
  rw [← bind_pure_comp]
  infer_instance

instance (x : Action α) : Silent x.observe := ⟨fun _ => rfl⟩

theorem logsAs_nothing (x : Action α) [hx : Silent x] : x.LogsAs .nothing := hx.silent

/-- What follows without a word leaves the subject as it is. -/
theorem LogsAs.bind_silent {x : Action α} {s : Subject} (h : x.LogsAs s) (hs : s.IsSteady)
    (f : α → Action β) [hf : ∀ a, Silent (f a)] : (x >>= f).LogsAs s := by
  intro r
  have hfirst : (x.run r).events = s.events none := (h r).trans (hs _)
  rw [hs, events_bind, hfirst]
  cases (x.run r).result with
  | error e => rfl
  | ok a =>
    dsimp only
    rw [(hf a).silent, List.append_nil]

/-- An event and then silence. -/
theorem logsAs_log {event : Log.Event} {s : Subject} (hs : ∀ o, s.events o = [event])
    (f : Unit → Action α) [hf : Silent (f ())] : (log event >>= f).LogsAs s := by
  intro r
  rw [hs, events_bind, run_log]
  dsimp only
  rw [hf.silent, List.append_nil]

end Action

open SealedMetadata.Action (LogsAs Silent)

instance (count : Nat) : Silent (Alphanumeric.draw count) := by
  unfold Alphanumeric.draw
  infer_instance

instance (count : Nat) : Silent (Alphanumeric.drawText count) := by
  unfold Alphanumeric.drawText
  infer_instance

namespace Blob

instance (salt : Option Bytes) : Silent (Salted.chooseSalt salt) := by
  cases salt with
  | none => exact inferInstanceAs (Silent (Action.draw _))
  | some s =>
    rw [Salted.chooseSalt]
    split <;> infer_instance

instance (key : UnreadSecret) (salt : Option Bytes) (text : Bytes) :
    Silent (Salted.encryptUnread key salt text) := by
  unfold Salted.encryptUnread
  infer_instance

instance (key : UnreadSecret) (text : Bytes) : Silent (Authenticated.encryptUnread key text) := by
  unfold Authenticated.encryptUnread
  infer_instance

instance (key : Secret) (salt : Option Bytes) (text : Bytes) :
    Silent (Salted.encrypt key salt text) :=
  inferInstanceAs (Silent (Salted.encryptUnread (.ok key) salt text))

instance (key : Secret) (text : Bytes) : Silent (Authenticated.encrypt key text) :=
  inferInstanceAs (Silent (Authenticated.encryptUnread (.ok key) text))

/-- What an encryption is about: the length of the text, and the version if it is accepted. -/
def encryptionOf (size : Nat) (requested : RequestedVersion) : Subject :=
  .encryption size (Version.ofRequest requested).toOption

/-- What a decryption is about: the length of the blob, and the version that it begins with. -/
def decryptionOf (blob : Bytes) : Subject := .decryption blob.length (sniff blob).toOption

/-- What the decryption of a field is about: its blob, if the field holds one. -/
def fieldDecryptionOf (field : Bytes) : Subject :=
  match ofField field with
  | .ok blob => decryptionOf blob
  | .error _ => .nothing

theorem isSteady_encryptionOf (size : Nat) (requested : RequestedVersion) :
    (encryptionOf size requested).IsSteady := by
  intro o
  rw [encryptionOf]
  cases (Version.ofRequest requested).toOption <;> rfl

theorem isSteady_decryptionOf (blob : Bytes) : (decryptionOf blob).IsSteady := fun _ => rfl

theorem isSteady_fieldDecryptionOf (field : Bytes) : (fieldDecryptionOf field).IsSteady := by
  intro o
  rw [fieldDecryptionOf]
  cases ofField field <;> rfl

/-- An encryption is announced before its key is read. -/
theorem logsAs_encryptUnread (text : Bytes) (key : UnreadSecret) (requested : RequestedVersion)
    (salt : Option Bytes) :
    (encryptUnread text key requested salt).LogsAs (encryptionOf text.length requested) := by
  rw [encryptUnread, encryptionOf]
  cases Version.ofRequest requested with
  | error e =>
    rw [Action.ofExcept_error_bind]
    exact fun r => rfl
  | ok v =>
    rw [Action.ofExcept_ok_bind]
    -- what comes after the announcement is silent in either version
    cases v with
    | cbc => exact Action.logsAs_log (fun o => rfl) _
    | gcm => exact Action.logsAs_log (fun o => rfl) _

theorem logsAs_encrypt (text : Bytes) (key : Secret) (requested : RequestedVersion)
    (salt : Option Bytes) :
    (encrypt text key requested salt).LogsAs (encryptionOf text.length requested) :=
  logsAs_encryptUnread text (.ok key) requested salt

theorem logsAs_encryptTextUnread (text : Secret) (key : UnreadSecret)
    (requested : RequestedVersion) :
    (encryptTextUnread (.ok text) key requested).LogsAs
      (encryptionOf text.content.length requested) :=
  (logsAs_encryptUnread text.content key requested none).bind_silent (isSteady_encryptionOf _ _) _

theorem logsAs_encryptText (text key : Secret) (requested : RequestedVersion) :
    (encryptText text key requested).LogsAs (encryptionOf text.content.length requested) :=
  logsAs_encryptTextUnread text (.ok key) requested

/-- A decryption is announced before its key is read. -/
theorem logsAs_decryptUnread (blob : Bytes) (key : UnreadSecret) :
    (decryptUnread blob key).LogsAs (decryptionOf blob) := by
  rw [decryptUnread, decryptionOf]
  cases sniff blob with
  | error e =>
    rw [Action.ofExcept_error_bind]
    exact fun r => rfl
  | ok v =>
    rw [Action.ofExcept_ok_bind]
    exact Action.logsAs_log (fun o => rfl) _

theorem logsAs_decrypt (blob : Bytes) (key : Secret) :
    (decrypt blob key).LogsAs (decryptionOf blob) :=
  logsAs_decryptUnread blob (.ok key)

theorem logsAs_decryptTextUnread (field : Secret) (key : UnreadSecret) :
    (decryptTextUnread (.ok field) key).LogsAs (fieldDecryptionOf field.content) := by
  rw [decryptTextUnread, fieldDecryptionOf, Action.ofExcept_ok_bind]
  cases ofField field.content with
  | error e =>
    rw [Action.ofExcept_error_bind]
    exact fun r => rfl
  | ok blob =>
    rw [Action.ofExcept_ok_bind]
    exact (logsAs_decryptUnread blob key).bind_silent (isSteady_decryptionOf blob) _

theorem logsAs_decryptText (field key : Secret) :
    (decryptText field key).LogsAs (fieldDecryptionOf field.content) :=
  logsAs_decryptTextUnread field (.ok key)

theorem Search.le_tried {α : Type} (answer : Secret → Except Failure α) (tried : Nat)
    (keys : List Secret) : tried ≤ (ofAnswers answer tried keys).tried := by
  rcases ofAnswers_cases answer tried keys with ⟨i, hi, -, -, hsearch⟩ | ⟨-, hsearch⟩
  · rw [hsearch]
    dsimp only
    omega
  · rw [hsearch]
    exact Nat.le_add_right tried keys.length

/-- The key that makes a search succeed is the last one that it tries. -/
theorem Search.exists_last_of_ok {α : Type} {answer : Secret → Except Failure α}
    {keys : List Secret} {a : α} (h : (ofAnswers answer 0 keys).result = .ok a) :
    ∃ i key, (ofAnswers answer 0 keys).tried = i + 1 ∧ keys[i]? = some key ∧
      answer key = .ok a := by
  rcases ofAnswers_cases answer 0 keys with ⟨i, hi, -, -, hsearch⟩ | ⟨-, hsearch⟩
  · rw [hsearch] at h ⊢
    refine ⟨i, keys[i], ?_, List.getElem?_eq_getElem hi, h⟩
    dsimp only
    omega
  · rw [hsearch] at h
    cases h

/-- Where each key leaves the same events, a search leaves them once for each key that it tries,
and one more event if it finds something. -/
theorem events_searchFrom {α : Type} {tryKey : Secret → Action α}
    {answer : Secret → Except Failure α} (h : Answers tryKey answer) {events : List Log.Event}
    (hevents : ∀ key r, ((tryKey key).run r).events = events) (tried : Nat) (keys : List Secret)
    (r : RandomSource) :
    ((searchFrom tryKey tried keys).run r).events =
      (List.replicate ((Search.ofAnswers answer tried keys).tried - tried) events).flatten ++
        if kind? (Search.ofAnswers answer tried keys).result = none
        then [.keyMatched (Search.ofAnswers answer tried keys).tried] else [] := by
  -- a key that fails to decrypt adds its events to those of the keys after it; each other outcome
  -- ends the search
  induction keys generalizing tried r with
  | nil =>
    rw [Search.ofAnswers_of_none (List.forall_mem_nil _), searchFrom, List.length_nil,
      Nat.add_zero, Nat.sub_self]
    rfl
  | cons key keys ih =>
    obtain ⟨logged, hkey⟩ := h key r
    have hlogged : logged = events := by
      rw [← hevents key r, hkey]
    rw [searchFrom, Action.events_bind, Action.run_attempt, hkey, hlogged]
    dsimp only
    cases hanswer : answer key with
    | ok a =>
      have hends : endsSearch (answer key) = true := by
        rw [hanswer]
        rfl
      rw [Search.ofAnswers_cons_of_ends hends, hanswer, Nat.add_sub_cancel_left,
        List.replicate_one, List.flatten_singleton]
      rfl
    | error e =>
      dsimp only
      cases he : e.isDecryption with
      | true =>
        have hmoves : endsSearch (answer key) = false := by
          rw [hanswer, endsSearch, he]
          rfl
        -- the rest of the search has one more key behind it
        have hle := Search.le_tried answer (tried + 1) keys
        have hcount : (Search.ofAnswers answer (tried + 1) keys).tried - tried =
            (Search.ofAnswers answer (tried + 1) keys).tried - (tried + 1) + 1 := by
          omega
        rw [if_pos rfl, ih, Search.ofAnswers_cons_of_moves_on hmoves, hcount,
          List.replicate_succ, List.flatten_cons, List.append_assoc]
      | false =>
        have hends : endsSearch (answer key) = true := by
          rw [hanswer, endsSearch, he]
          rfl
        rw [Search.ofAnswers_cons_of_ends hends, hanswer, Nat.add_sub_cancel_left,
          List.replicate_one, List.flatten_singleton]
        rfl

theorem events_decryptWithAny (blob : Bytes) (keys : List Secret) (r : RandomSource) :
    ∃ search, ((decryptWithAny blob keys).run r).result = .ok search ∧
      ((decryptWithAny blob keys).run r).events =
        (Subject.search blob.length (sniff blob).toOption search.tried).events
          (kind? search.result) := by
  refine ⟨_, result_decryptWithAny blob keys r, ?_⟩
  have hevents (key : Secret) (r : RandomSource) : ((decrypt blob key).run r).events =
      Log.decryptionEvents blob.length (sniff blob).toOption :=
    logsAs_decrypt blob key r
  exact events_searchFrom (answers_decrypt blob) hevents 0 keys r

/-- What a search on a field is about: its blob, if it holds one. -/
def fieldSearchOf (field : Bytes) (tried : Nat) : Subject :=
  match ofField field with
  | .ok blob => .search blob.length (sniff blob).toOption tried
  | .error _ => .nothing

theorem events_decryptTextWithAny (field : Secret) (keys : List Secret) (r : RandomSource) :
    ∃ search, ((decryptTextWithAny field keys).run r).result = .ok search ∧
      ((decryptTextWithAny field keys).run r).events =
        (fieldSearchOf field.content search.tried).events (kind? search.result) := by
  refine ⟨_, result_decryptTextWithAny field keys r, ?_⟩
  have hevents (key : Secret) (r : RandomSource) : ((decryptText field key).run r).events =
      (fieldDecryptionOf field.content).events none :=
    (logsAs_decryptText field key r).trans (isSteady_fieldDecryptionOf _ _)
  have hsearch := events_searchFrom (answers_decryptText field) hevents 0 keys r
  rw [decryptTextWithAny, hsearch]
  cases hblob : ofField field.content with
  | ok blob =>
    rw [fieldDecryptionOf, fieldSearchOf, hblob]
    rfl
  | error e =>
    -- without a blob no key finds anything
    have hfails (key : Secret) : fieldReading field.content key = .error e := by
      rw [fieldReading, hblob]
    have hlost : kind? (Search.ofAnswers (fieldReading field.content) 0 keys).result ≠ none := by
      rcases Search.ofAnswers_cases (fieldReading field.content) 0 keys with
        ⟨i, hi, -, -, hended⟩ | ⟨-, hended⟩
      · rw [hended, hfails]
        exact Option.some_ne_none _
      · rw [hended]
        exact Option.some_ne_none _
    rw [fieldDecryptionOf, fieldSearchOf, hblob, if_neg hlost, List.append_nil]
    exact List.flatten_replicate_nil

end Blob

end SealedMetadata
