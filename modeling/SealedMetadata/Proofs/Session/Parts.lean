import SealedMetadata.Proofs.Random.Counts
import SealedMetadata.Session.Run

/-!
Properties that an operation has because all of its parts have them. How the arguments of an
operation are read, and what is put together of quiet parts and kept values, is gone through here
once, for every property of this sort.
-/

namespace SealedMetadata

namespace Vaulted

/-- A property that holds of a look at the vault, of a plain result, of keeping a value, and of
steps one after another. -/
class Structural (P : (α : Type) → Vaulted α → Prop) : Prop where
  pure : ∀ {α : Type} (a : α), P α (pure a)
  bind : ∀ {α β : Type} {x : Vaulted α} {f : α → Vaulted β}, P α x → (∀ a, P β (f a)) →
    P β (x >>= f)
  get : P Vault get
  result : ∀ {α : Type} (x : Except Failure α), P α (perform (Action.ofExcept x))
  keep : ∀ (kind : SealedKind) (content : Bytes), P Sealed (keep kind content)

/-- A property of this sort that also holds of every quiet action. -/
class Compositional (P : (α : Type) → Vaulted α → Prop) : Prop extends Structural P where
  quiet : ∀ {α : Type} (x : Action α) [Action.Quiet x], P α (perform x)
  result x := quiet (Action.ofExcept x)

/-- An operation has a property of this sort. -/
class Has (P : (α : Type) → Vaulted α → Prop) {α : Type} (x : Vaulted α) : Prop where
  holds : P α x

section Instances

variable {P : (α : Type) → Vaulted α → Prop} [hP : Structural P] {α β : Type}

instance (a : α) : Has P (pure a : Vaulted α) := ⟨hP.pure a⟩

instance (x : Vaulted α) (f : α → Vaulted β) [hx : Has P x] [hf : ∀ a, Has P (f a)] :
    Has P (x >>= f) :=
  ⟨hP.bind hx.holds fun a => (hf a).holds⟩

instance : Has P (get : Vaulted Vault) := ⟨hP.get⟩

instance (x : Except Failure α) : Has P (perform (Action.ofExcept x)) := ⟨hP.result x⟩

instance (e : Failure) : Has P (fail e : Vaulted α) := ⟨hP.result (.error e)⟩

instance (kind : SealedKind) (content : Bytes) : Has P (keep kind content) := ⟨hP.keep kind content⟩

instance (f : Vault → Except Failure α) : Has P (inspect f) := by
  unfold inspect
  infer_instance

instance (f : α → β) (x : Vaulted α) [Has P x] : Has P (f <$> x) := by
  rw [← bind_pure_comp]
  infer_instance

instance (c : Prop) [Decidable c] (x y : Vaulted α) [Has P x] [Has P y] :
    Has P (if c then x else y) := by
  split <;> infer_instance

instance (items : List α) (f : α → Vaulted β) [∀ a, Has P (f a)] : Has P (items.mapM f) := by
  induction items with
  | nil =>
    rw [List.mapM_nil]
    infer_instance
  | cons a items ih =>
    rw [List.mapM_cons]
    infer_instance

end Instances

instance {P : (α : Type) → Vaulted α → Prop} [hP : Compositional P] {α : Type} (x : Action α)
    [Action.Quiet x] : Has P (perform x) :=
  ⟨hP.quiet x⟩

/-- What follows a step is settled for each of its results. -/
theorem has_bind {P : (α : Type) → Vaulted α → Prop} [Structural P] {α β : Type}
    {x : Vaulted α} {f : α → Vaulted β} [Has P x] (hf : ∀ a, Has P (f a)) : Has P (x >>= f) :=
  inferInstance

end Vaulted

open Vaulted (Structural Compositional Has has_bind)

section Fields

variable {P : (α : Type) → Vaulted α → Prop}

instance [Structural P] (field : Option Secret) : Has P (Vaulted.spend field) := by
  unfold Vaulted.spend
  cases field <;> infer_instance

instance [Compositional P] (field : Option Secret) (key : Secret) :
    Has P (MasterKeys.readSealed field key) := by
  rw [MasterKeys.readSealed_eq]
  infer_instance

instance [Compositional P] (field : Option Secret) (key : Secret) :
    Has P (PrivateKey.readSealed field key) := by
  obtain h | ⟨f, rfl, hf⟩ := Secret.cases_of_field field
  · rw [PrivateKey.readSealed_of_empty h]
    infer_instance
  · rw [PrivateKey.readSealed_some hf]
    infer_instance

end Fields

section Payloads

variable {P : (α : Type) → Vaulted α → Prop} [Structural P]

instance (c : Credentials) : Has P (SealedCredentials.keep c) := by
  unfold SealedCredentials.keep
  infer_instance

instance (email password twoFactorKey authVersion : Value) :
    Has P (LoginRequest.new email password twoFactorKey authVersion) := by
  unfold LoginRequest.new
  infer_instance

instance (email : Value) (c : SealedCredentials) (twoFactorKey : Value) :
    Has P (LoginRequest.forCredentials email c twoFactorKey) := by
  unfold LoginRequest.forCredentials
  infer_instance

instance (data : Value) : Has P (LoginResponse.ofFields data) := by
  unfold LoginResponse.ofFields
  infer_instance

instance (apiKey : Value) (button : DownloadButton) (expiration : Expiration)
    (password : PasswordState) (hashed salt uuid : Value) :
    Has P (LinkEdit.ofParts apiKey button expiration password hashed salt uuid) := by
  unfold LinkEdit.ofParts
  infer_instance

end Payloads

section QuietPayloads

variable {P : (α : Type) → Vaulted α → Prop} [Compositional P]

instance (m : AuthInfo) (password : Secret) : Has P (m.derive password) := by
  unfold AuthInfo.derive
  infer_instance

instance (m : LoginResponse) (key : Secret) : Has P (m.decryptMasterKeys key) := by
  unfold LoginResponse.decryptMasterKeys
  infer_instance

instance (m : LoginResponse) (key : Secret) : Has P (m.decryptPrivateKey key) := by
  unfold LoginResponse.decryptPrivateKey
  infer_instance

end QuietPayloads

namespace Session

section Arguments

variable {P : (α : Type) → Vaulted α → Prop} [Structural P] (names : Names)

mutual

theorem has_eval : ∀ a : Arg, Has P (a.eval names)
  | .value x => by
    rw [Arg.eval]
    infer_instance
  | .uuid text => by
    rw [Arg.eval]
    infer_instance
  | .sealedCopy kind source => by
    have hsource : Has P (source.eval names) := has_eval source
    rw [Arg.eval]
    infer_instance
  | .stored name path => by
    rw [Arg.eval]
    infer_instance
  | .list items => by
    have hitems : Has P (evalItems names items) := has_evalItems items
    rw [Arg.eval]
    infer_instance

theorem has_evalItems : ∀ items : List Arg, Has P (evalItems names items)
  | [] => by
    rw [evalItems]
    infer_instance
  | item :: items => by
    have hitem : Has P (item.eval names) := has_eval item
    have hitems : Has P (evalItems names items) := has_evalItems items
    rw [evalItems]
    infer_instance

end

instance (a : Arg) : Has P (a.eval names) := has_eval names a

instance (a : Arg) : Has P (a.evalValue names) := by
  unfold Arg.evalValue
  infer_instance

instance (a : Option Arg) : Has P (evalOption names a) := by
  unfold evalOption
  cases a <;> infer_instance

instance (a : Option Arg) (default : Value) : Has P (evalDefault names a default) := by
  unfold evalDefault
  cases a <;> infer_instance

instance (a : Arg) : Has P (a.evalSecret names) := by
  unfold Arg.evalSecret
  infer_instance

instance (a : Option Arg) : Has P (evalSecret? names a) := by
  unfold evalSecret?
  infer_instance

instance (a : Option Arg) : Has P (evalGivenSecret names a) := by
  unfold evalGivenSecret
  exact has_bind fun x => by cases x <;> infer_instance

instance (a : Arg) : Has P (a.evalBytes names) := by
  unfold Arg.evalBytes
  exact has_bind fun x => by cases x <;> infer_instance

instance (a : Option Arg) : Has P (evalBytes? names a) := by
  unfold evalBytes?
  exact has_bind fun x => by cases x <;> infer_instance

instance (a : Arg) : Has P (a.evalSecrets names) := by
  unfold Arg.evalSecrets
  exact has_bind fun x => by cases x <;> infer_instance

instance (a : Option Arg) : Has P (evalVersion names a) := by
  unfold evalVersion
  cases a <;> infer_instance

instance {α : Type} [Choice α] (a : Option Arg) (default : α) :
    Has P (evalChoice names a default) := by
  unfold evalChoice
  cases a <;> infer_instance

instance (button expiration : Option Arg) : Has P (evalLinkChoices names button expiration) := by
  unfold evalLinkChoices
  infer_instance

instance (a : Arg) : Has P (a.evalCredentials names) := by
  unfold Arg.evalCredentials
  exact has_bind fun o => by cases o <;> infer_instance

instance (a : Arg) : Has P (a.evalModel names) := by
  unfold Arg.evalModel
  exact has_bind fun o => by cases o <;> infer_instance

end Arguments

section Replies

variable {P : (α : Type) → Vaulted α → Prop} [Structural P]

instance (s : String) : Has P (Reply.keepText s) := by
  unfold Reply.keepText
  infer_instance

instance (names : Names) (a : Arg) : Has P (judgedVersion names a) := by
  unfold judgedVersion
  infer_instance

instance {α : Type} (search : Blob.Search α) (keep : α → Vaulted Object) [∀ a, Has P (keep a)] :
    Has P (replySearch search keep) := by
  unfold replySearch
  split <;> infer_instance

instance (c : SealedCredentials) : Has P (bothHex c) := by
  unfold bothHex
  infer_instance

instance (names : Names) (model : Arg) : Has P ((ModelOperation.hasPassword model).run names) := by
  unfold ModelOperation.run
  exact has_bind fun m => by cases m <;> infer_instance

end Replies

-- the operations that ask first which kind of payload they were given
section OnPayloads

variable {P : (α : Type) → Vaulted α → Prop} [Compositional P] (names : Names)

instance (model password : Arg) :
    Has P ((ModelOperation.deriveCredentials model password).run names) := by
  unfold ModelOperation.run
  exact has_bind fun m => by cases m <;> infer_instance

instance (model key : Arg) : Has P ((ModelOperation.responseMasterKeys model key).run names) := by
  unfold ModelOperation.run
  exact has_bind fun m => by cases m <;> infer_instance

instance (model key : Arg) : Has P ((ModelOperation.responsePrivateKey model key).run names) := by
  unfold ModelOperation.run
  exact has_bind fun m => by cases m <;> infer_instance

instance (model keys : Arg) : Has P ((ModelOperation.readLinkKey model keys).run names) := by
  unfold ModelOperation.run
  refine has_bind fun m => ?_
  cases m with
  | linkStatus m =>
    refine has_bind fun ks => has_bind fun v => has_bind fun key => ?_
    cases key <;> infer_instance
  | _ => infer_instance

end OnPayloads

end Session

end SealedMetadata
