import SealedMetadata.Proofs.Account.LoginFlow
import SealedMetadata.Proofs.Session.SecretArguments

/-!
Secrets in one form or another. A text, bytes and a sealed value of the same content can stand for
each other in every operation that asks for a secret, wherever it does and whatever the content: in
one operation, and in all steps of a session. A sealed value that has been emptied stands for the
empty text, and for an absent field or salt.
-/

namespace SealedMetadata.Session

open Vaulted (Agree)

variable {names : Names} {v : Vault}

section Operations

variable (names : Names) (v : Vault)

/-- Two operations on keys that differ in secrets of the same content only. -/
inductive KeyOperation.Swapped : KeyOperation → KeyOperation → Prop
  | fingerprint {a b : Arg} (h : SameSecret names v a b) :
      Swapped (.fingerprint a) (.fingerprint b)
  | longFingerprint {a b : Arg} (h : SameSecret names v a b) :
      Swapped (.longFingerprint a) (.longFingerprint b)
  | derive {p p' s s' : Arg} (iterations length : Int) (hp : SameSecret names v p p')
      (hs : SameSecret names v s s') :
      Swapped (.derive p s iterations length) (.derive p' s' iterations length)
  | derive256 {p p' s s' : Arg} (iterations : Int) (hp : SameSecret names v p p')
      (hs : SameSecret names v s s') :
      Swapped (.derive256 p s iterations) (.derive256 p' s' iterations)
  | derive512 {p p' s s' : Arg} (iterations : Int) (hp : SameSecret names v p p')
      (hs : SameSecret names v s s') :
      Swapped (.derive512 p s iterations) (.derive512 p' s' iterations)
  | keyAndVector {p p' : Arg} (salt : Option Arg) (iterations keyLength ivLength : Option Int)
      (hp : SameSecret names v p p') :
      Swapped (.keyAndVector p salt iterations keyLength ivLength)
        (.keyAndVector p' salt iterations keyLength ivLength)

/-- Two operations on blobs and fields that differ in secrets of the same content only. -/
inductive BlobOperation.Swapped : BlobOperation → BlobOperation → Prop
  | encryptSalted {k k' : Arg} (data : Arg) (salt : Option Arg) (hk : SameSecret names v k k') :
      Swapped (.encryptSalted data k salt) (.encryptSalted data k' salt)
  | decryptSalted {k k' : Arg} (data : Arg) (hk : SameSecret names v k k') :
      Swapped (.decryptSalted data k) (.decryptSalted data k')
  | encryptAuthenticated {k k' : Arg} (data : Arg) (hk : SameSecret names v k k') :
      Swapped (.encryptAuthenticated data k) (.encryptAuthenticated data k')
  | decryptAuthenticated {k k' : Arg} (data : Arg) (hk : SameSecret names v k k') :
      Swapped (.decryptAuthenticated data k) (.decryptAuthenticated data k')
  | encrypt {k k' : Arg} (data version : Arg) (salt : Option Arg) (hk : SameSecret names v k k') :
      Swapped (.encrypt data k version salt) (.encrypt data k' version salt)
  | decrypt {k k' : Arg} (data : Arg) (hk : SameSecret names v k k') :
      Swapped (.decrypt data k) (.decrypt data k')
  | encryptText {d d' k k' : Arg} (version : Arg) (hd : SameSecret names v d d')
      (hk : SameSecret names v k k') :
      Swapped (.encryptText d k version) (.encryptText d' k' version)
  | decryptText {d d' k k' : Arg} (hd : SameSecret names v d d') (hk : SameSecret names v k k') :
      Swapped (.decryptText d k) (.decryptText d' k')
  | decryptWithAny {ks ks' : Arg} (data : Arg) (hks : SameKeys names v ks ks') :
      Swapped (.decryptWithAny data ks) (.decryptWithAny data ks')
  | decryptTextWithAny {d d' ks ks' : Arg} (hd : SameSecret names v d d')
      (hks : SameKeys names v ks ks') :
      Swapped (.decryptTextWithAny d ks) (.decryptTextWithAny d' ks')
  | decryptMasterKeys {d d' : Option Arg} {k k' : Arg} (hd : SameField names v d d')
      (hk : SameSecret names v k k') : Swapped (.decryptMasterKeys d k) (.decryptMasterKeys d' k')
  | encryptMasterKeys {ks ks' k k' : Arg} (version : Option Arg) (hks : SameKeys names v ks ks')
      (hk : SameSecret names v k k') :
      Swapped (.encryptMasterKeys ks k version) (.encryptMasterKeys ks' k' version)
  | decryptPrivateKey {d d' : Option Arg} {k k' : Arg} (hd : SameField names v d d')
      (hk : SameSecret names v k k') : Swapped (.decryptPrivateKey d k) (.decryptPrivateKey d' k')
  | newLinkKey {k k' : Arg} (version : Option Arg) (hk : SameSecret names v k k') :
      Swapped (.newLinkKey k version) (.newLinkKey k' version)
  | hashLinkPassword {p p' : Arg} (hp : SameSecret names v p p') :
      Swapped (.hashLinkPassword p) (.hashLinkPassword p')

/-- Two operations on credentials that differ in secrets of the same content only. -/
inductive CredentialOperation.Swapped : CredentialOperation → CredentialOperation → Prop
  | ofPassword {p p' : Arg} (hp : SameSecret names v p p') :
      Swapped (.ofPassword p) (.ofPassword p')
  | ofPasswordAndSalt {p p' s s' : Arg} (hp : SameSecret names v p p')
      (hs : SameSecret names v s s') : Swapped (.ofPasswordAndSalt p s) (.ofPasswordAndSalt p' s')
  | forVersion {p p' : Arg} {s s' : Option Arg} (version : Arg) (hp : SameSecret names v p p')
      (hs : SameField names v s s') : Swapped (.forVersion version p s) (.forVersion version p' s')

/-- Two operations that differ in secrets of the same content only. -/
inductive Operation.Swapped : Operation → Operation → Prop
  | same (o : Operation) : Swapped o o
  | key {o o' : KeyOperation} (h : o.Swapped names v o') : Swapped (.key o) (.key o')
  | blob {o o' : BlobOperation} (h : o.Swapped names v o') : Swapped (.blob o) (.blob o')
  | credential {o o' : CredentialOperation} (h : o.Swapped names v o') :
      Swapped (.credential o) (.credential o')

end Operations

theorem KeyOperation.Swapped.agree {o o' : KeyOperation} (h : o.Swapped names v o') :
    Agree v (o.run names) (o'.run names) := by
  cases h with
  | fingerprint h =>
    refine agree_evalSecret h fun s t hst => ?_
    rw [hst]
  | longFingerprint h =>
    refine agree_evalSecret h fun s t hst => ?_
    rw [hst]
  | derive iterations length hp hs =>
    refine agree_evalSecret hp fun p p' hp => agree_evalSecret hs fun s s' hs => ?_
    rw [PasswordKey.derive_congr hp hs]
  | derive256 iterations hp hs =>
    refine agree_evalSecret hp fun p p' hp => agree_evalSecret hs fun s s' hs => ?_
    rw [PasswordKey.derive256_congr hp hs]
  | derive512 iterations hp hs =>
    refine agree_evalSecret hp fun p p' hp => agree_evalSecret hs fun s s' hs => ?_
    rw [PasswordKey.derive512_congr hp hs]
  | keyAndVector salt iterations keyLength ivLength hp =>
    refine agree_evalSecret hp fun p p' hp => Agree.after _ fun s => ?_
    rw [PasswordKey.keyAndVector_congr hp]

theorem BlobOperation.Swapped.agree {o o' : BlobOperation} (h : o.Swapped names v o') :
    Agree v (o.run names) (o'.run names) := by
  cases h with
  | encryptSalted data salt hk =>
    refine Agree.after _ fun text => agree_evalSecret hk fun k k' hk => Agree.after _ fun s => ?_
    rw [Blob.Salted.encrypt_congr hk]
  | decryptSalted data hk =>
    refine Agree.after _ fun blob => agree_evalSecret hk fun k k' hk => ?_
    rw [Blob.Salted.decrypt_congr hk]
  | encryptAuthenticated data hk =>
    refine Agree.after _ fun text => agree_evalSecret hk fun k k' hk => ?_
    rw [Blob.Authenticated.encrypt_congr hk]
  | decryptAuthenticated data hk =>
    refine Agree.after _ fun body => agree_evalSecret hk fun k k' hk => ?_
    rw [Blob.Authenticated.decrypt_congr hk]
  | encrypt data version salt hk =>
    refine Agree.after _ fun text => agree_evalSecret hk fun k k' hk =>
      Agree.after _ fun requested => Agree.after _ fun s => ?_
    rw [Blob.encrypt_congr hk]
  | decrypt data hk =>
    refine Agree.after _ fun blob => agree_evalSecret hk fun k k' hk => ?_
    rw [Blob.decrypt_congr hk]
  | encryptText version hd hk =>
    refine agree_evalSecret hd fun d d' hd => agree_evalSecret hk fun k k' hk =>
      Agree.after _ fun requested => ?_
    rw [Blob.encryptText_congr hd hk]
  | decryptText hd hk =>
    refine agree_evalSecret hd fun d d' hd => agree_evalSecret hk fun k k' hk => ?_
    rw [Blob.decryptText_congr hd hk]
  | decryptWithAny data hks =>
    refine Agree.after _ fun blob => agree_evalSecrets hks fun ks ks' hks => ?_
    rw [Blob.decryptWithAny_congr hks]
  | decryptTextWithAny hd hks =>
    refine agree_evalSecret hd fun d d' hd => agree_evalSecrets hks fun ks ks' hks => ?_
    rw [Blob.decryptTextWithAny_congr hd hks]
  | decryptMasterKeys hd hk =>
    refine agree_evalSecret? hd fun d d' hd => agree_evalSecret hk fun k k' hk => ?_
    rw [MasterKeys.readSealed_congr hd hk]
  | encryptMasterKeys version hks hk =>
    refine agree_evalSecrets hks fun ks ks' hks => agree_evalSecret hk fun k k' hk =>
      Agree.after _ fun requested => ?_
    rw [MasterKeys.encrypt_congr hks hk]
  | decryptPrivateKey hd hk =>
    refine agree_evalSecret? hd fun d d' hd => agree_evalSecret hk fun k k' hk => ?_
    rw [PrivateKey.readSealed_congr hd hk]
  | newLinkKey version hk =>
    refine agree_evalSecret hk fun k k' hk => Agree.after _ fun requested => ?_
    rw [Link.newKey_congr hk]
  | hashLinkPassword hp =>
    refine agree_evalSecret hp fun p p' hp => ?_
    rw [Link.hashPassword_congr hp]

theorem CredentialOperation.Swapped.agree {o o' : CredentialOperation}
    (h : o.Swapped names v o') : Agree v (o.run names) (o'.run names) := by
  cases h with
  | ofPassword hp =>
    refine agree_evalSecret hp fun p p' hp => ?_
    rw [Credentials.ofPassword_congr hp]
  | ofPasswordAndSalt hp hs =>
    refine agree_evalSecret hp fun p p' hp => agree_evalSecret hs fun s s' hs => ?_
    rw [Credentials.ofPasswordAndSalt_congr hp hs]
  | forVersion version hp hs =>
    refine Agree.after _ fun x => Agree.after _ fun requested =>
      agree_evalSecret hp fun p p' hp => agree_evalOption hs fun s s' hs => ?_
    -- the salt is read in the vault that is there when its turn comes
    intro w hw r
    have hget (f : Vault → Vaulted Reply) : (get >>= f).act w r = (f w).act w r := rfl
    rw [hget, hget, Credentials.forVersion_congr requested hp (hs w hw)]

theorem Operation.Swapped.agree {o o' : Operation} (h : o.Swapped names v o') (time : String) :
    Agree v (o.run time names) (o'.run time names) := by
  cases h with
  | same => rfl
  | key h => exact h.agree
  | blob h => exact h.agree
  | credential h => exact h.agree

/-- Two steps in one state that differ in secrets of the same content only. -/
structure Step.Swapped (st : State) (s s' : Step) : Prop where
  operation : s.operation.Swapped st.names st.vault s'.operation
  name_eq : s.name? = s'.name?
  level_eq : s.level? = s'.level?

/-- Two lists of steps from one state on, each two of which differ in secrets of the same content
only. -/
inductive SwappedAll : State → List Step → List Step → Prop
  | nil (st : State) : SwappedAll st [] []
  | cons {st : State} {s s' : Step} {ss ss' : List Step} (first : s.Swapped st s')
      (rest : SwappedAll (step st s).state ss ss') : SwappedAll st (s :: ss) (s' :: ss')

theorem step_of_swapped {st : State} {s s' : Step} (h : s.Swapped st s') :
    step st s = step st s' := by
  have hact := h.operation.agree st.time st.vault (Vault.Grown.refl st.vault) st.source
  rw [step, step, hact, h.name_eq, h.level_eq]

/-- Answers, vaults and the state at the end are the same. -/
theorem runAll_of_swapped {st : State} {ss ss' : List Step} (h : SwappedAll st ss ss') :
    runAll st ss = runAll st ss' := by
  -- both runs are in the same state before each step
  induction h with
  | nil st => rfl
  | cons first _ ih => rw [runAll, runAll, ← step_of_swapped first, ih]

/-- A field or a salt that is not there: it holds no keys and no private key, and the second version
of credentials cannot do without it. -/
structure IsMissing (names : Names) (v : Vault) (a : Option Arg) : Prop where
  masterKeys : ∀ key k, (key.evalSecret names).run v = pure (k, v) →
    ((BlobOperation.decryptMasterKeys a key).run names).run v = pure (.ofValue (.list []), v)
  privateKey : ∀ key k, (key.evalSecret names).run v = pure (k, v) →
    ((BlobOperation.decryptPrivateKey a key).run names).run v =
      pure (.ofValue (.sealed (v.add .bytes []).1), (v.add .bytes []).2)
  salt : ∀ version x password p, Arg.Reads names version x → x.number? = some 2 →
    (password.evalSecret names).run v = pure (p, v) → ∀ r,
      ((((CredentialOperation.forVersion version password a).run names).run v).run r).result =
        .error (.malformed .saltMissing)

theorem isMissing_none (names : Names) (v : Vault) : IsMissing names v none where
  masterKeys key k hkey := by
    have hfield : (evalSecret? names none).run v = pure (none, v) := rfl
    rw [BlobOperation.run, Vaulted.run_bind_of_pure _ hfield, Vaulted.run_bind_of_pure _ hkey]
    rfl
  privateKey key k hkey := by
    have hfield : (evalSecret? names none).run v = pure (none, v) := rfl
    rw [BlobOperation.run, Vaulted.run_bind_of_pure _ hfield, Vaulted.run_bind_of_pure _ hkey]
    rfl
  salt version x password p hversion htwo hpassword r := by
    have hrequested : (Vaulted.inspect fun v => .ok (x.requestedAuthVersion v)).run v =
        pure (x.requestedAuthVersion v, v) := rfl
    have hsalt : (evalOption names none).run v = pure (.none, v) := rfl
    have hvault : (get : Vaulted Vault).run v = pure (v, v) := rfl
    have hnosalt : Value.toSecret? v .none = .ok none := rfl
    have hnone : ∀ s ∈ (none : Option Secret), s.content = [] := fun s hs => by cases hs
    have hsecond : (x.requestedAuthVersion v).number? = some 2 := htwo
    have hrefused := Credentials.result_forVersion_unsalted (r := r) hsecond p hnone
    rw [CredentialOperation.run, Vaulted.run_bind_of_pure _ (hversion v),
      Vaulted.run_bind_of_pure _ hrequested, Vaulted.run_bind_of_pure _ hpassword,
      Vaulted.run_bind_of_pure _ hsalt, Vaulted.run_bind_of_pure _ hvault,
      Vaulted.run_perform_bind, Action.result_bind, hnosalt, hrefused]

theorem IsMissing.of_fills {a : Option Arg} {x : Value} (ha : ReadsOption names a x)
    (hx : x.Fills v []) : IsMissing names v a := by
  -- no bytes can be swapped for nothing at all
  have hnone : ReadsOption names none .none := fun _ => rfl
  have hsame : SameField names v a none :=
    .swapped ha hnone hx (Or.inr ⟨rfl, rfl⟩)
  have hmissing := isMissing_none names v
  refine ⟨?_, ?_, ?_⟩
  · intro key k hkey
    rw [(BlobOperation.Swapped.decryptMasterKeys hsame (.same key)).agree.run_eq]
    exact hmissing.masterKeys key k hkey
  · intro key k hkey
    rw [(BlobOperation.Swapped.decryptPrivateKey hsame (.same key)).agree.run_eq]
    exact hmissing.privateKey key k hkey
  · intro version x password p hversion htwo hpassword r
    rw [(CredentialOperation.Swapped.forVersion version (.same password) hsame).agree.run_eq]
    exact hmissing.salt version x password p hversion htwo hpassword r

/-- What has been wiped holds no bytes any more, as the empty text does. -/
theorem holds_of_wipe {v : Vault} {s : Sealed} (hs : s.slot < v.buffers.size) :
    (Value.sealed s).Holds (v.wipe s) [] := by
  have hempty : (v.wipe s).content s = [] := by
    rw [Vault.content_wipe, if_pos rfl]
  rw [← hempty]
  apply Value.Holds.sealed
  rw [Vault.size_wipe]
  exact hs

/-- Secrets are interchangeable. Operations that differ in secrets of the same content come to the
same in every respect: result or failure, events, draws and vault; and so do whole sessions. A
wiped value is interchangeable with the empty text, and where a field or a salt may be absent, one
without bytes is treated as absent. -/
theorem secrets_interchangeable_across_forms :
    (∀ (names : Names) (v : Vault) (o o' : Operation) (time : String), o.Swapped names v o' →
      ∀ r, (o.run time names).act v r = (o'.run time names).act v r) ∧
    (∀ st ss ss', SwappedAll st ss ss' → runAll st ss = runAll st ss') ∧
    (∀ (v : Vault) (s : Sealed), s.slot < v.buffers.size →
      Value.Interchangeable (v.wipe s) (.sealed s) (.text "")) ∧
    ∀ (names : Names) (v : Vault) (a : Option Arg) (x : Value), ReadsOption names a x →
      x.Fills v [] → IsMissing names v a := by
  refine ⟨?_, ?_, ?_, ?_⟩
  · intro names v o o' time h
    exact h.agree time v (Vault.Grown.refl v)
  · intro st ss ss' h
    exact runAll_of_swapped h
  · intro v s hs
    have htext : (Value.text "").Holds (v.wipe s) [] := .text ""
    exact ⟨[], holds_of_wipe hs, htext⟩
  · intro names v a x ha hx
    exact IsMissing.of_fills ha hx

/-- A vault with a text that is not UTF-8, and a value that has been wiped. -/
def wipedVault : Vault := Vault.wipe ⟨#[[0xff], [0x6b]]⟩ ⟨.bytes, 1⟩

/-- A session that knows the two values of this vault by name. -/
def wipedState : State :=
  ⟨"", wipedVault, [("lone", .value (.sealed ⟨.text, 0⟩)), ("wiped", .value (.sealed ⟨.bytes, 1⟩))],
    .cycle []⟩

/-- Keys are encrypted, and then a field is read: once with the two sealed values, and once with
bytes, a text and nothing in their places. -/
theorem unreadable_key_and_wiped_field_interchanged :
    runAll wipedState
        [⟨.blob (.encryptMasterKeys (.list [.stored "lone" [], .value (.text "a")])
          (.stored "wiped" []) none), none, none⟩,
          ⟨.blob (.decryptMasterKeys (some (.stored "wiped" [])) (.value (.bytes [0xff]))), none,
            none⟩] =
      runAll wipedState
        [⟨.blob (.encryptMasterKeys (.list [.value (.bytes [0xff]), .value (.text "a")])
          (.value (.text "")) none), none, none⟩,
          ⟨.blob (.decryptMasterKeys none (.stored "lone" [])), none, none⟩] ∧
      Value.Interchangeable wipedVault (.sealed ⟨.bytes, 1⟩) (.text "") ∧
      IsMissing wipedState.names wipedVault (some (.stored "wiped" [])) := by
  obtain ⟨-, hrun, hwipe, hmissing⟩ := secrets_interchangeable_across_forms
  have hempty : Value.Holds wipedVault [] (.sealed ⟨.bytes, 1⟩) :=
    holds_of_wipe (v := ⟨#[[0xff], [0x6b]]⟩) (s := ⟨.bytes, 1⟩) (by decide)
  have hlone : Value.Holds wipedVault [0xff] (.sealed ⟨.text, 0⟩) :=
    .sealed (v := wipedVault) (s := ⟨.text, 0⟩) (by decide)
  have hkept : (Arg.stored "lone" []).Reads wipedState.names (.sealed ⟨.text, 0⟩) := fun _ => rfl
  have hwiped : (Arg.stored "wiped" []).Reads wipedState.names (.sealed ⟨.bytes, 1⟩) :=
    fun _ => rfl
  have hopen (x : Value) : (Arg.value x).Reads wipedState.names x := fun _ => rfl
  have hkey : SameSecret wipedState.names wipedVault (.stored "wiped" []) (.value (.text "")) :=
    .swapped hwiped (hopen _) ⟨[], hempty, .text ""⟩
  have hlist : SameKeys wipedState.names wipedVault
      (.list [.stored "lone" [], .value (.text "a")])
      (.list [.value (.bytes [0xff]), .value (.text "a")]) :=
    .swapped (fun _ => rfl) (fun _ => rfl)
      (.cons (Or.inr ⟨[0xff], hlone, .bytes [0xff]⟩) (.cons (Or.inl rfl) .nil))
  have hfield : SameField wipedState.names wipedVault (some (.stored "wiped" [])) none :=
    .swapped (fun _ => rfl) (fun _ => rfl) (Or.inl hempty) (Or.inr ⟨rfl, rfl⟩)
  refine ⟨hrun _ _ _ (.cons ⟨?_, rfl, rfl⟩ (.cons ⟨?_, rfl, rfl⟩ (.nil _))), ?_, ?_⟩
  · exact .blob (.encryptMasterKeys none hlist hkey)
  · exact .blob (.decryptMasterKeys hfield (.swapped (hopen _) hkept ⟨[0xff], .bytes _, hlone⟩))
  · exact hwipe ⟨#[[0xff], [0x6b]]⟩ ⟨.bytes, 1⟩ (by decide)
  · exact hmissing _ _ _ _ (fun _ => rfl) (Or.inl hempty)

end SealedMetadata.Session
