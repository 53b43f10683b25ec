import SealedMetadata.Cli.Run
import SealedMetadata.Proofs.Account.LoginFlow
import SealedMetadata.Proofs.Account.SealedFields

/-!
What a command prints does not suffer from its buffers: they are read before they are wiped, and
every one of them is wiped before anything is printed, also where the command fails.
-/

namespace SealedMetadata

theorem Vault.content_add_empty (v : Vault) (kind : SealedKind) (t : Sealed) :
    (v.add kind []).2.content t = v.content t := by
  rw [content_add]
  split
  next ht =>
    -- no buffer was there before
    simp [content, Array.getD, ht]
  next => rfl

/-- Credentials that are kept in a scope are read from their two new buffers, which are empty when
the scope is left. -/
theorem SealedCredentials.act_keep_within {α : Type} (c : Credentials)
    (f : Credentials → Except Failure α) (v : Vault) (r : RandomSource) :
    (keep c >>= fun kept => kept.within (Vaulted.inspect fun w => f (kept.contents w))).act v r =
      (⟨f c, [], r⟩, ((v.add .bytes []).2.add .bytes []).2) := by
  let masterKey := v.add .bytes c.masterKey
  let sentPassword := masterKey.2.add .bytes c.sentPassword
  let kept : SealedCredentials := ⟨masterKey.1, sentPassword.1, c.authVersion⟩
  have hkept : (keep c).act v r = (⟨.ok kept, [], r⟩, sentPassword.2) := rfl
  have hcontents : kept.contents sentPassword.2 = c := by
    rw [contents, Vault.content_add_new, Vault.content_add_old _ _ _ (Vault.slot_add_lt ..),
      Vault.content_add_new]
  -- to wipe the older buffer is to wipe it before the younger one is made
  have hemptied : emptied sentPassword.2 kept = ((v.add .bytes []).2.add .bytes []).2 := by
    have holder := Vault.add_wipe (Vault.slot_add_lt v .bytes c.masterKey) .bytes c.sentPassword
    rw [Vault.wipe_add_new] at holder
    have hyounger := Vault.wipe_add_new (v.add .bytes []).2 .bytes c.sentPassword
    rw [holder] at hyounger
    exact hyounger
  rw [Vaulted.act_bind_of_silent _ hkept, within, Vaulted.act_ensuring, Vaulted.left,
    Vaulted.act_inspect, hcontents, hemptied]

namespace Cli.Command

variable (settings : Settings) (secret : RawText)

/-- A decrypted text is printed from its buffer, which is empty in the end. -/
theorem carryOut_decrypt (data : RawText) (key : Option RawText) :
    (decrypt data key).carryOut settings secret =
      Vaulted.perform (Blob.decryptTextUnread data.secret secret.secret) >>= fun text =>
        Vaulted.keep .text [] >>= fun _ => pure text := by
  refine Vaulted.ext fun v r => ?_
  rw [carryOut, Blob.decryptSealed, bind_assoc, Vaulted.act_perform_bind, Vaulted.act_perform_bind]
  cases ((Blob.decryptTextUnread data.secret secret.secret).run r).result with
  | error e => rfl
  | ok text =>
    have hread := Sealed.text_of_content (Vault.content_add_new v .text (Utf8.encode text))
    dsimp only
    rw [Vaulted.act_bind_of_silent _ (Vaulted.act_keep ..),
      Vaulted.act_bind_of_silent _ (Vaulted.act_keep ..), Vaulted.within, Vaulted.act_ensuring,
      Vaulted.left, Vaulted.act_inspect, hread, Vault.wipe_add_new]
    rfl

/-- Derived credentials are printed from their buffers, which are empty in the end. -/
theorem carryOut_loginHash (authVersion : RequestedVersion) (salt password : Option RawText)
    (showMasterKey : Bool) :
    (loginHash authVersion salt password showMasterKey).carryOut settings secret =
      Vaulted.perform (Credentials.forVersionUnread authVersion secret.secret
        (salt.mapM RawText.secret)) >>= fun c =>
        Vaulted.keep .bytes [] >>= fun _ => Vaulted.keep .bytes [] >>= fun _ =>
          Vaulted.perform (Action.ofExcept (credentialLines showMasterKey c)) := by
  refine Vaulted.ext fun v r => ?_
  rw [carryOut, Vaulted.act_perform_bind, Vaulted.act_perform_bind]
  cases ((Credentials.forVersionUnread authVersion secret.secret
    (salt.mapM RawText.secret)).run r).result with
  | error e => rfl
  | ok c =>
    dsimp only
    rw [SealedCredentials.act_keep_within]
    rfl

/-- Once a command is over, the buffers hold what they held before, and the new ones nothing. -/
theorem content_carryOut (c : Command) (v : Vault) (r : RandomSource) (t : Sealed) :
    ((c.carryOut settings secret).left v r).content t = v.content t := by
  cases c with
  | encrypt data key version => rfl
  | decrypt data key =>
    rw [carryOut_decrypt, Vaulted.left, Vaulted.act_perform_bind]
    split
    · rfl
    · exact Vault.content_add_empty v .text t
  | loginHash authVersion salt password showMasterKey =>
    rw [carryOut_loginHash, Vaulted.left, Vaulted.act_perform_bind]
    split
    · rfl
    · exact (Vault.content_add_empty _ .bytes t).trans (Vault.content_add_empty v .bytes t)
  | linkHash password =>
    rw [carryOut, Vaulted.left, Vaulted.act_perform_bind]
    split <;> rfl

theorem perform_encrypt (data : RawText) (key : Option RawText)
    (version : Option RequestedVersion) :
    (encrypt data key version).perform settings secret =
      Blob.encryptTextUnread data.secret secret.secret
        (version.getD settings.metadataVersion.request) := rfl

theorem perform_decrypt (data : RawText) (key : Option RawText) :
    (decrypt data key).perform settings secret =
      Blob.decryptTextUnread data.secret secret.secret := by
  rw [perform, carryOut_decrypt, Vaulted.runIn_eq, Vaulted.run_perform_bind, map_bind]
  exact bind_pure _

theorem perform_loginHash (authVersion : RequestedVersion) (salt password : Option RawText)
    (showMasterKey : Bool) :
    (loginHash authVersion salt password showMasterKey).perform settings secret =
      Credentials.forVersionUnread authVersion secret.secret (salt.mapM RawText.secret) >>=
        fun c => Action.ofExcept (credentialLines showMasterKey c) := by
  rw [perform, carryOut_loginHash, Vaulted.runIn_eq, Vaulted.run_perform_bind, map_bind]
  refine bind_congr fun c => ?_
  rw [Vaulted.run_keep_bind, Vaulted.run_keep_bind, Vaulted.run_perform, map_bind]
  exact bind_pure _

theorem perform_linkHash (password : Option RawText) :
    (linkHash password).perform settings secret =
      Link.hashPasswordUnread secret.secret >>= fun hashed =>
        pure ("password_hashed: " ++ hashed.1 ++ "\nsalt: " ++ hashed.2) := by
  rw [perform, carryOut, Vaulted.runIn_eq, Vaulted.run_perform_bind, map_bind]
  rfl

end Cli.Command

end SealedMetadata
