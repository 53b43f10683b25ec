import SealedMetadata.Blob.AnyKey
import SealedMetadata.Cli.Run
import SealedMetadata.Payload.LinkAdd
import SealedMetadata.Payload.LinkStatus
import SealedMetadata.Proofs.Account.SealedFields
import SealedMetadata.Proofs.Blob.TextForm
import SealedMetadata.Proofs.Cli.Sealing
import SealedMetadata.Proofs.Random.Draws

/-!
The random bytes that each part of the library draws. Encryptions draw a salt or a nonce, new
links draw a key and an identifier besides, and all else draws nothing. A refused encryption draws
nothing either.
-/

namespace SealedMetadata

open SealedMetadata.Action (Draws Quiet Succeeds Fails)

namespace Alphanumeric

theorem draws_draw (count : Nat) : (draw count).Draws count :=
  (Action.draws_draw count).bind_quiet _

theorem draws_drawText (count : Nat) : (drawText count).Draws count :=
  (draws_draw count).bind_quiet _

theorem succeeds_drawText (count : Nat) : (drawText count).Succeeds := fun _ => ⟨_, rfl⟩

end Alphanumeric

theorem Uuid.draws_draw : draw.Draws 16 := (Action.draws_draw 16).bind_quiet _

namespace Blob

/-- The bytes that a salt draws: none if the caller's has the right length. -/
def Salted.drawn (salt : Option Bytes) : Nat :=
  if salt.map List.length = some saltLength then 0 else saltLength

theorem Salted.draws_chooseSalt (salt : Option Bytes) : (chooseSalt salt).Draws (drawn salt) := by
  cases salt with
  | none => exact Action.draws_draw saltLength
  | some s =>
    simp only [drawn, Option.map_some, Option.some.injEq, chooseSalt]
    by_cases hs : s.length = saltLength
    · rw [if_pos hs, if_pos hs]
      exact Action.draws_zero _
    · rw [if_neg hs, if_neg hs]
      exact Action.draws_draw saltLength

/-- The salt is drawn whether the key can be read or not. -/
theorem Salted.draws_encryptUnread (key : UnreadSecret) (salt : Option Bytes) (text : Bytes) :
    (encryptUnread key salt text).Draws (drawn salt) :=
  (draws_chooseSalt salt).bind_quiet _

/-- The bytes that a nonce draws: none if the key cannot be read. -/
def Authenticated.drawn : UnreadSecret → Nat
  | .ok _ => nonceLength
  | .error _ => 0

theorem Authenticated.draws_encryptUnread (key : UnreadSecret) (text : Bytes) :
    (encryptUnread key text).Draws (drawn key) := by
  rw [encryptUnread]
  cases key with
  | error e =>
    rw [Action.ofExcept_error_bind]
    exact Action.draws_zero _
  | ok k =>
    rw [Action.ofExcept_ok_bind]
    exact (Alphanumeric.draws_draw nonceLength).bind_quiet _

/-- The bytes that an encryption draws in the version asked for. -/
def drawnUnread (key : UnreadSecret) (requested : RequestedVersion) (salt : Option Bytes) : Nat :=
  match Version.ofRequest requested with
  | .ok .cbc => Salted.drawn salt
  | .ok .gcm => Authenticated.drawn key
  | .error _ => 0

/-- The bytes that it draws with a key that can be read, whichever that is. -/
def drawn (requested : RequestedVersion) (salt : Option Bytes) : Nat :=
  match Version.ofRequest requested with
  | .ok .cbc => Salted.drawn salt
  | .ok .gcm => Authenticated.nonceLength
  | .error _ => 0

theorem draws_encryptUnread (text : Bytes) (key : UnreadSecret) (requested : RequestedVersion)
    (salt : Option Bytes) :
    (encryptUnread text key requested salt).Draws (drawnUnread key requested salt) := by
  rw [encryptUnread, drawnUnread]
  cases Version.ofRequest requested with
  | error e =>
    rw [Action.ofExcept_error_bind]
    exact Action.draws_zero _
  | ok v =>
    rw [Action.ofExcept_ok_bind]
    refine Draws.after (fun _ => ?_) _ (Action.succeeds_log _)
    cases v with
    | cbc => exact Salted.draws_encryptUnread key salt text
    | gcm => exact (Authenticated.draws_encryptUnread key text).bind_quiet _

theorem draws_encrypt (text : Bytes) (key : Secret) (requested : RequestedVersion)
    (salt : Option Bytes) : (encrypt text key requested salt).Draws (drawn requested salt) :=
  draws_encryptUnread text (.ok key) requested salt

/-- The bytes that the encryption of a text draws: none if it cannot be read. -/
def textDrawn : UnreadSecret → UnreadSecret → RequestedVersion → Nat
  | .ok _, key, requested => drawnUnread key requested none
  | .error _, _, _ => 0

theorem draws_encryptTextUnread (text key : UnreadSecret) (requested : RequestedVersion) :
    (encryptTextUnread text key requested).Draws (textDrawn text key requested) := by
  cases text with
  | error e =>
    rw [encryptTextUnread, Action.ofExcept_error_bind]
    exact Action.draws_zero _
  | ok text =>
    rw [encryptTextUnread, Action.ofExcept_ok_bind]
    exact (draws_encryptUnread text.content key requested none).bind_quiet _

theorem draws_encryptText (text key : Secret) (requested : RequestedVersion) :
    (encryptText text key requested).Draws (drawn requested none) :=
  draws_encryptTextUnread (.ok text) (.ok key) requested

theorem succeeds_encryptText {requested : RequestedVersion} {v : Version}
    (hv : Version.ofRequest requested = .ok v) (text key : Secret) :
    (encryptText text key requested).Succeeds := by
  intro r
  obtain ⟨field, hfield, -⟩ := exists_textForm v key none r text.content
  exact ⟨field, by rw [result_encryptText hv, hfield]⟩

theorem fails_encryptText {requested : RequestedVersion} {e : Failure}
    (he : Version.ofRequest requested = .error e) (text key : Secret) :
    (encryptText text key requested).Fails := by
  intro r
  rw [encryptText_eq, encrypt_eq, he]
  exact ⟨e, rfl⟩

instance (blob : Bytes) (key : UnreadSecret) : Quiet (decryptUnread blob key) := by
  unfold decryptUnread
  infer_instance

instance (blob : Bytes) (key : Secret) : Quiet (decrypt blob key) :=
  inferInstanceAs (Quiet (decryptUnread blob (.ok key)))

instance (field key : UnreadSecret) : Quiet (decryptTextUnread field key) := by
  unfold decryptTextUnread
  infer_instance

instance (field key : Secret) : Quiet (decryptText field key) :=
  inferInstanceAs (Quiet (decryptTextUnread (.ok field) (.ok key)))

instance {α : Type} (tryKey : Secret → Action α) [∀ key, Quiet (tryKey key)] (tried : Nat)
    (keys : List Secret) : Quiet (searchFrom tryKey tried keys) := by
  induction keys generalizing tried with
  | nil =>
    unfold searchFrom
    infer_instance
  | cons key keys ih =>
    have hrest (answer : Except Failure α) : Quiet (match answer with
        | .ok a => (do
          Action.log (.keyMatched (tried + 1))
          return ⟨tried + 1, .ok a⟩)
        | .error e =>
          if e.isDecryption then searchFrom tryKey (tried + 1) keys
          else return ⟨tried + 1, .error e⟩ : Action (Search α)) := by
      cases answer <;> infer_instance
    unfold searchFrom
    infer_instance

instance (blob : Bytes) (keys : List Secret) : Quiet (decryptWithAny blob keys) :=
  inferInstanceAs (Quiet (searchFrom (decrypt blob) 0 keys))

instance (field : Secret) (keys : List Secret) : Quiet (decryptTextWithAny field keys) :=
  inferInstanceAs (Quiet (searchFrom (decryptText field) 0 keys))

end Blob

namespace MasterKeys

instance (field : Option Secret) (key : Secret) : Quiet (decrypt field key) := by
  obtain h | ⟨f, rfl, hf⟩ := Secret.cases_of_field field
  · rw [decrypt_of_empty h]
    infer_instance
  · rw [decrypt_some hf]
    infer_instance

/-- The bytes that an encryption of a set of keys draws: none if the set is refused. -/
def drawn (keys : List Secret) (requested : RequestedVersion) : Nat :=
  match joinedText keys with
  | .ok _ => Blob.drawn requested none
  | .error _ => 0

theorem draws_encrypt (keys : List Secret) (key : Secret) (requested : RequestedVersion) :
    (encrypt keys key requested).Draws (drawn keys requested) := by
  rw [encrypt, drawn]
  cases joinedText keys with
  | error e =>
    rw [Action.ofExcept_error_bind]
    exact Action.draws_zero _
  | ok text => exact Blob.draws_encryptText (.text text) key requested

end MasterKeys

instance (field : Option Secret) (key : Secret) : Quiet (PrivateKey.decrypt field key) := by
  obtain h | ⟨f, rfl, hf⟩ := Secret.cases_of_field field
  · rw [PrivateKey.decrypt_of_empty h]
    infer_instance
  · rw [PrivateKey.decrypt_some hf]
    infer_instance

instance (version : RequestedVersion) (password : UnreadSecret)
    (salt : Except Failure (Option Secret)) :
    Quiet (Credentials.forVersionUnread version password salt) := by
  have hsalted (s : Option Secret) : Quiet (match s with
      | some s =>
        if s.isEmpty then Action.fail (.malformed .saltMissing)
        else Action.ofExcept password >>= fun p =>
          Action.ofExcept (Credentials.ofPasswordAndSalt p s)
      | none => Action.fail (.malformed .saltMissing)) := by
    cases s <;> infer_instance
  unfold Credentials.forVersionUnread
  infer_instance

instance (version : RequestedVersion) (password : Secret)
    (salt : Except Failure (Option Secret)) :
    Quiet (Credentials.forVersion version password salt) :=
  inferInstanceAs (Quiet (Credentials.forVersionUnread version (.ok password) salt))

namespace Link

/-- The salt is drawn whether the password can be read or not. -/
theorem draws_hashPasswordUnread (password : UnreadSecret) :
    (hashPasswordUnread password).Draws 32 :=
  (Action.draws_draw 32).bind_quiet _

theorem draws_hashPassword (password : Secret) : (hashPassword password).Draws 32 :=
  draws_hashPasswordUnread (.ok password)

/-- A new key is drawn before its encryption, which may refuse the version. -/
theorem draws_newKey (masterKey : Secret) (version : RequestedVersion) :
    (newKey masterKey version).Draws (32 + Blob.drawn version none) := by
  refine (Alphanumeric.draws_drawText 32).bind (Alphanumeric.succeeds_drawText 32) fun key => ?_
  exact (Blob.draws_encryptText (.text key) masterKey version).bind_quiet _

end Link

instance (v : Vault) (m : LinkStatus) (keys : List Secret) : Quiet (m.decryptLinkKey v keys) := by
  unfold LinkStatus.decryptLinkKey
  split <;> infer_instance

namespace LinkAdd

/-- The bytes that the field with a link's key draws: those of a new key, if none is given, and
those of its encryption. -/
def keyDrawn (linkKey : Option Secret) (version : RequestedVersion) : Nat :=
  (if linkKey.isNone then 32 else 0) + Blob.drawn version none

theorem draws_keyField (linkKey : Option Secret) (masterKey : Secret)
    (version : RequestedVersion) :
    (keyField linkKey masterKey version).Draws (keyDrawn linkKey version) := by
  cases linkKey with
  | none => exact (Link.draws_newKey masterKey version).bind_quiet _
  | some key =>
    have h := Blob.draws_encryptText key masterKey version
    rw [← Nat.zero_add (Blob.drawn version none)] at h
    exact h

theorem succeeds_keyField {version : RequestedVersion} {v : Version}
    (hv : Version.ofRequest version = .ok v) (linkKey : Option Secret) (masterKey : Secret) :
    (keyField linkKey masterKey version).Succeeds := by
  have hencrypt (key : Secret) := Blob.succeeds_encryptText hv key masterKey
  cases linkKey with
  | none =>
    refine Succeeds.bind ((Alphanumeric.succeeds_drawText 32).bind fun key => ?_) fun made =>
      Action.succeeds_pure made.2
    exact (hencrypt (.text key)).bind fun field => Action.succeeds_pure (key, field)
  | some key => exact hencrypt key

theorem fails_keyField {version : RequestedVersion} {e : Failure}
    (he : Version.ofRequest version = .error e) (linkKey : Option Secret) (masterKey : Secret) :
    (keyField linkKey masterKey version).Fails := by
  have hrefused (key : Secret) := Blob.fails_encryptText he key masterKey
  cases linkKey with
  | none =>
    exact Fails.bind (Action.fails_bind _ fun key => (hrefused (.text key)).bind _) _
  | some key => exact hrefused key

end LinkAdd

namespace Cli

/-- The bytes that a command draws with its secret. -/
def Command.drawn (settings : Settings) (secret : RawText) : Command → Nat
  | encrypt data _ version =>
    Blob.textDrawn data.secret secret.secret (version.getD settings.metadataVersion.request)
  | linkHash _ => 32
  | decrypt _ _ | loginHash _ _ _ _ => 0

theorem Command.draws_perform (settings : Settings) (secret : RawText) (c : Command) :
    (c.perform settings secret).Draws (c.drawn settings secret) := by
  cases c with
  | encrypt data key version =>
    rw [perform_encrypt]
    exact Blob.draws_encryptTextUnread data.secret secret.secret _
  | decrypt data key =>
    rw [perform_decrypt]
    exact Action.draws_zero (Blob.decryptTextUnread data.secret secret.secret)
  | loginHash authVersion salt password showMasterKey =>
    rw [perform_loginHash]
    exact Action.draws_zero _
  | linkHash password =>
    rw [perform_linkHash]
    exact (Link.draws_hashPasswordUnread secret.secret).bind_quiet _

/-- The bytes that a run of a command line draws: those of its command, if it is carried out. -/
def drawn (separators : Separators) (args : List RawText) (env : Settings.Environment)
    (answers : List RawText) : Nat :=
  match Invocation.ofArguments separators args, Settings.ofEnvironment env with
  | .ok i, .ok settings =>
    match i.command.secret, answers with
    | .inl secret, _ => i.command.drawn settings secret
    | .inr _, [] => 0
    | .inr _, answer :: _ => i.command.drawn settings answer
  | _, _ => 0

theorem draws_run (separators : Separators) (time : String) (args : List RawText)
    (env : Settings.Environment) (answers : List RawText) :
    (run separators time args env answers).Draws (drawn separators args env answers) := by
  rw [run, drawn]
  cases Invocation.ofArguments separators args with
  | error stop => exact Action.draws_zero _
  | ok i =>
    dsimp only
    cases Settings.ofEnvironment env with
    | error e => exact Action.draws_zero _
    | ok settings =>
      dsimp only
      have hperformed (secret : RawText) (asked : List String) :
          (Report.ran <$> ((i.command.perform settings secret).observe >>= fun outcome =>
            Action.ofExcept
              (report time (levelFor settings i) i.command.name asked outcome))).Draws
            (i.command.drawn settings secret) :=
        ((i.command.draws_perform settings secret).observe.bind_quiet _).map Report.ran
      rw [runWith]
      cases i.command.secret with
      | inl s => exact hperformed s []
      | inr question =>
        cases answers with
        | nil => exact Action.draws_zero (Report.ran <$> Action.fail .endOfInput)
        | cons answer rest => exact hperformed answer [question]

end Cli

end SealedMetadata
