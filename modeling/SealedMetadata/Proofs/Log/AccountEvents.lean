import SealedMetadata.Payload.LinkStatus
import SealedMetadata.Proofs.Account.MasterKeySet
import SealedMetadata.Proofs.Log.Events
import SealedMetadata.Proofs.Payload.LinkKey
import SealedMetadata.Uuid

/-!
What the operations on accounts and links log. They say no more than the encryptions and
decryptions in them, besides the number of master keys that were read and the authentication
version that credentials were asked for.
-/

namespace SealedMetadata

open Log (Subject kind?)
open SealedMetadata.Action (LogsAs Silent)

instance : Silent Uuid.draw := by
  unfold Uuid.draw
  infer_instance

namespace MasterKeys

/-- What the reading of master keys is about. -/
def subject (field : Option Secret) (count : Nat) : Subject :=
  match field with
  | none => .nothing
  | some f =>
    if f.isEmpty then .nothing
    else
      match Blob.ofField f.content with
      | .ok blob => .masterKeys blob.length (Blob.sniff blob).toOption count
      | .error _ => .nothing

/-- The number of keys that were read. -/
def count : Except Failure (List String) → Nat
  | .ok keys => keys.length
  | .error _ => 0

theorem events_decrypt (field : Option Secret) (key : Secret) (r : RandomSource) :
    ((decrypt field key).run r).events =
      (subject field (count ((decrypt field key).run r).result)).events
        (kind? ((decrypt field key).run r).result) := by
  cases field with
  | none => rfl
  | some f =>
    rw [subject]
    split
    next hf => rw [decrypt, readSealed, if_pos hf]; rfl
    -- the number of keys is told only once all of them are read
    next hf =>
      rw [decrypt_some (Bool.not_eq_true _ ▸ hf)]
      have htext := Blob.logsAs_decryptText f key r
      rw [Blob.fieldDecryptionOf] at htext
      rw [Action.events_bind, Action.result_bind, htext]
      cases hblob : Blob.ofField f.content with
      | error e =>
        have hfailed : ((Blob.decryptText f key).run r).result = .error e := by
          rw [Blob.decryptText_eq, hblob]
          rfl
        rw [hfailed]
        rfl
      | ok blob =>
        cases ((Blob.decryptText f key).run r).result with
        | error e => exact (List.append_nil _).symm
        | ok text => rfl

/-- What the encryption of master keys is about, if they are joined to a text. -/
def encryptionOf (keys : List Secret) (requested : RequestedVersion) : Subject :=
  match joinedText keys with
  | .ok text => Blob.encryptionOf (Utf8.encode text).length requested
  | .error _ => .nothing

theorem isSteady_encryptionOf (keys : List Secret) (requested : RequestedVersion) :
    (encryptionOf keys requested).IsSteady := by
  rw [encryptionOf]
  cases joinedText keys with
  | error e => exact fun o => rfl
  | ok text => exact Blob.isSteady_encryptionOf _ requested

theorem logsAs_encrypt (keys : List Secret) (key : Secret) (requested : RequestedVersion) :
    (encrypt keys key requested).LogsAs (encryptionOf keys requested) := by
  rw [encrypt, encryptionOf]
  cases joinedText keys with
  | error e =>
    rw [Action.ofExcept_error_bind]
    exact fun r => rfl
  | ok text =>
    rw [Action.ofExcept_ok_bind]
    exact Blob.logsAs_encryptText (.text text) key requested

end MasterKeys

namespace PrivateKey

/-- What the reading of a private key is about. -/
def subject (field : Option Secret) : Subject :=
  match field with
  | none => .nothing
  | some f => if f.isEmpty then .nothing else Blob.fieldDecryptionOf f.content

theorem subject_of_empty {field : Option Secret} (h : ∀ f ∈ field, f.content = []) :
    subject field = .nothing := by
  cases field with
  | none => rfl
  | some f => exact if_pos (Secret.isEmpty_iff.mpr (h f rfl))

theorem subject_some {f : Secret} (hf : f.isEmpty = false) :
    subject (some f) = Blob.fieldDecryptionOf f.content :=
  if_neg (Bool.not_eq_true _ ▸ hf)

end PrivateKey

theorem Credentials.logsAs_forVersionUnread (version : RequestedVersion) (password : UnreadSecret)
    (salt : Except Failure (Option Secret)) :
    (forVersionUnread version password salt).LogsAs (.derivation version.shown) := by
  -- the announcement comes before the version, the salt and the password are looked at
  rw [forVersionUnread]
  by_cases hone : version.number? = some 1
  · rw [if_pos hone]
    exact Action.logsAs_log (fun o => rfl) _
  rw [if_neg hone]
  by_cases htwo : version.number? = some 2
  · rw [if_pos htwo]
    cases salt with
    | error e =>
      rw [Action.ofExcept_error_bind]
      exact Action.logsAs_log (fun o => rfl) _
    | ok salt =>
      rw [Action.ofExcept_ok_bind]
      cases salt with
      | none => exact Action.logsAs_log (fun o => rfl) _
      | some s =>
        dsimp only
        by_cases hempty : s.isEmpty = true
        · rw [if_pos hempty]
          exact Action.logsAs_log (fun o => rfl) _
        · rw [if_neg hempty]
          exact Action.logsAs_log (fun o => rfl) _
  · rw [if_neg htwo]
    exact Action.logsAs_log (fun o => rfl) _

theorem Credentials.logsAs_forVersion (version : RequestedVersion) (password : Secret)
    (salt : Except Failure (Option Secret)) :
    (forVersion version password salt).LogsAs (.derivation version.shown) :=
  logsAs_forVersionUnread version (.ok password) salt

instance (password : UnreadSecret) : Silent (Link.hashPasswordUnread password) := by
  unfold Link.hashPasswordUnread
  infer_instance

instance (password : Secret) : Silent (Link.hashPassword password) :=
  inferInstanceAs (Silent (Link.hashPasswordUnread (.ok password)))

/-- A new link key is thirty-two letters and digits, whichever these are. -/
theorem Link.logsAs_newKey (masterKey : Secret) (requested : RequestedVersion) :
    (newKey masterKey requested).LogsAs (Blob.encryptionOf 32 requested) := by
  have hencrypt (key : String) (hkey : (Utf8.encode key).length = 32) (r : RandomSource) :
      (((Blob.encryptText (.text key) masterKey requested >>= fun field =>
        return (key, field) : Action (String × String))).run r).events =
        (Blob.encryptionOf 32 requested).events none := by
    have hlogs := (Blob.logsAs_encryptText (.text key) masterKey requested).bind_silent
      (Blob.isSteady_encryptionOf _ requested) fun field => (return (key, field) :
        Action (String × String))
    rw [Secret.content, hkey] at hlogs
    exact (hlogs r).trans (Blob.isSteady_encryptionOf 32 requested _)
  intro r
  -- the length of the key is fixed before it is drawn
  obtain ⟨t, hdraw, hbytes, -, -⟩ := Alphanumeric.exists_drawText 32 r
  have hlength : (Utf8.encode t).length = 32 := by
    rw [hbytes, List.length_map, RandomSource.length_peek]
  rw [Blob.isSteady_encryptionOf, newKey, Action.events_bind, hdraw]
  exact hencrypt t hlength _

namespace LinkAdd

/-- The length of a link's key, given or new. -/
def keyLength (linkKey : Option Secret) : Nat :=
  match linkKey with
  | none => 32
  | some key => key.content.length

theorem logsAs_keyField (linkKey : Option Secret) (masterKey : Secret)
    (requested : RequestedVersion) :
    (keyField linkKey masterKey requested).LogsAs
      (Blob.encryptionOf (keyLength linkKey) requested) := by
  cases linkKey with
  | none =>
    exact (Link.logsAs_newKey masterKey requested).bind_silent
      (Blob.isSteady_encryptionOf 32 requested) _
  | some key => exact Blob.logsAs_encryptText key masterKey requested

end LinkAdd

namespace LinkStatus

/-- The field with a link's key as it is searched, if there are keys to search with. -/
def searchedField? (v : Vault) (m : LinkStatus) (keys : List Secret) : Option Secret :=
  match m.keyMetadata with
  | .none => none
  | field => if keys.isEmpty then none else (field.toSecret v "bytes").toOption

theorem decryptLinkKey_of_some {v : Vault} {m : LinkStatus} (h : m.keyMetadata ≠ .none)
    (keys : List Secret) :
    m.decryptLinkKey v keys = if keys.isEmpty then Action.fail (.allKeysFailed 0) else do
      let secret ← Action.ofExcept (m.keyMetadata.toSecret v "bytes")
      let search ← Blob.decryptTextWithAny secret keys
      let key ← Action.ofExcept search.result
      return some key := by
  rw [decryptLinkKey]
  split
  next hnone => exact absurd hnone h
  next => rfl

theorem searchedField?_of_some {v : Vault} {m : LinkStatus} (h : m.keyMetadata ≠ .none)
    (keys : List Secret) : m.searchedField? v keys =
      if keys.isEmpty then none else (m.keyMetadata.toSecret v "bytes").toOption := by
  rw [searchedField?]
  split
  next hnone => exact absurd hnone h
  next => rfl

theorem decryptLinkKey_silent {v : Vault} {m : LinkStatus} {keys : List Secret}
    (h : m.searchedField? v keys = none) : Silent (m.decryptLinkKey v keys) := by
  by_cases hfield : m.keyMetadata = .none
  · rw [decryptLinkKey, hfield]
    infer_instance
  · rw [searchedField?_of_some hfield] at h
    rw [decryptLinkKey_of_some hfield]
    split
    · infer_instance
    next hkeys =>
      rw [if_neg hkeys] at h
      cases hsecret : m.keyMetadata.toSecret v "bytes" with
      | error e =>
        rw [Action.ofExcept_error_bind]
        infer_instance
      | ok secret =>
        rw [hsecret] at h
        cases h

theorem decryptLinkKey_eq {v : Vault} {m : LinkStatus} {keys : List Secret} {field : Secret}
    (h : m.searchedField? v keys = some field) :
    m.decryptLinkKey v keys = Blob.decryptTextWithAny field keys >>= fun search =>
      some <$> Action.ofExcept search.result := by
  have hfield : m.keyMetadata ≠ .none := by
    intro hnone
    rw [searchedField?, hnone] at h
    cases h
  rw [searchedField?_of_some hfield] at h
  rw [decryptLinkKey_of_some hfield]
  split at h
  · cases h
  next hkeys =>
    rw [if_neg hkeys]
    cases hsecret : m.keyMetadata.toSecret v "bytes" with
    | error e =>
      rw [hsecret] at h
      cases h
    | ok secret =>
      rw [hsecret] at h
      cases h
      rw [Action.ofExcept_ok_bind]
      rfl

end LinkStatus

end SealedMetadata
