import SealedMetadata.Account.Credentials
import SealedMetadata.Blob.AnyKey
import SealedMetadata.Link.Secrets
import SealedMetadata.Proofs.Account.SealedFields
import SealedMetadata.Proofs.Blob.Outcome

/-!
Secrets count by their bytes alone. What takes a secret does the same with any other secret of the
same content, open or sealed, text or not: same result or failure, same events, same draws. Where a
secret may be absent, one without bytes is as good as none.
-/

namespace SealedMetadata

namespace Secret

/-- The content of a secret that may be absent. -/
def contentOf (secret : Option Secret) : Bytes := (secret.map content).getD []

theorem contentOf_eq_nil_iff {secret : Option Secret} :
    contentOf secret = [] ↔ ∀ s ∈ secret, s.content = [] := by
  cases secret with
  | none => exact ⟨fun _ s hs => (by cases hs), fun _ => rfl⟩
  | some s =>
    constructor
    · rintro h _ ⟨⟩
      exact h
    · intro h
      exact h s rfl

/-- Optional secrets of the same content are both without bytes, or both there. -/
theorem cases_of_contentOf {a b : Option Secret} (h : contentOf a = contentOf b) :
    ((∀ s ∈ a, s.content = []) ∧ ∀ t ∈ b, t.content = []) ∨
      ∃ s t, a = some s ∧ b = some t ∧ s.content = t.content ∧ s.isEmpty = t.isEmpty := by
  -- a missing secret and an empty one have the same content, so the cases are split on that
  by_cases hempty : contentOf a = []
  · exact Or.inl ⟨contentOf_eq_nil_iff.mp hempty, contentOf_eq_nil_iff.mp (h.symm.trans hempty)⟩
  · have hother : contentOf b ≠ [] := fun hb => hempty (h.trans hb)
    obtain _ | s := a
    · exact absurd rfl hempty
    obtain _ | t := b
    · exact absurd rfl hother
    have hcontent : s.content = t.content := h
    refine Or.inr ⟨s, t, rfl, rfl, hcontent, ?_⟩
    rw [isEmpty_eq, isEmpty_eq, hcontent]

end Secret

variable {p p' s s' k k' : Secret}

namespace PasswordKey

theorem derive256_congr (hp : p.content = p'.content) (hs : s.content = s'.content)
    (iterations : Int) : derive256 p s iterations = derive256 p' s' iterations := by
  rw [derive256, derive256, hp, hs]

theorem derive512_congr (hp : p.content = p'.content) (hs : s.content = s'.content)
    (iterations : Int) : derive512 p s iterations = derive512 p' s' iterations := by
  rw [derive512, derive512, hp, hs]

theorem derive_congr (hp : p.content = p'.content) (hs : s.content = s'.content)
    (iterations length : Int) : derive p s iterations length = derive p' s' iterations length := by
  rw [derive, derive, derive256_congr hp hs, derive512_congr hp hs]

theorem keyAndVector_congr (hp : p.content = p'.content) (salt : Option Bytes)
    (iterations keyLength ivLength : Int) :
    keyAndVector p salt iterations keyLength ivLength =
      keyAndVector p' salt iterations keyLength ivLength := by
  rw [keyAndVector, keyAndVector, hp]

end PasswordKey

namespace Blob

theorem Salted.encrypt_congr (hk : k.content = k'.content) (salt : Option Bytes) (text : Bytes) :
    encrypt k salt text = encrypt k' salt text := by
  simp only [encrypt_eq, encryptWith, keyAndVector, hk]

theorem Authenticated.encrypt_congr (hk : k.content = k'.content) (text : Bytes) :
    encrypt k text = encrypt k' text := by
  rw [encrypt_eq, encrypt_eq]
  simp only [encryptWith, cipherKey, PasswordKey.derive256_congr hk hk]

theorem encrypt_congr (hk : k.content = k'.content) (text : Bytes) (version : RequestedVersion)
    (salt : Option Bytes) : encrypt text k version salt = encrypt text k' version salt := by
  rw [encrypt_eq, encrypt_eq, Salted.encrypt_congr hk, Authenticated.encrypt_congr hk]

theorem decrypt_congr (hk : k.content = k'.content) (blob : Bytes) :
    decrypt blob k = decrypt blob k' := by
  rw [decrypt_eq, decrypt_eq]
  simp only [decryptAs_congr _ hk]

theorem encryptText_congr (hs : s.content = s'.content) (hk : k.content = k'.content)
    (version : RequestedVersion) : encryptText s k version = encryptText s' k' version := by
  rw [encryptText_eq, encryptText_eq, hs, encrypt_congr hk]

theorem decryptText_congr (hs : s.content = s'.content) (hk : k.content = k'.content) :
    decryptText s k = decryptText s' k' := by
  rw [decryptText_eq, decryptText_eq, hs]
  simp only [decrypt_congr hk]

theorem decryptSealed_congr (hs : s.content = s'.content) (hk : k.content = k'.content) :
    decryptSealed (.ok s) (.ok k) = decryptSealed (.ok s') (.ok k') := by
  rw [decryptSealed_eq, decryptSealed_eq, decryptText_congr hs hk]

/-- A search among keys depends on what is done with the contents of the keys. -/
theorem searchFrom_congr {α : Type} {tryKey tryKey' : Secret → Action α}
    (htry : ∀ k k' : Secret, k.content = k'.content → tryKey k = tryKey' k')
    {keys keys' : List Secret} (hkeys : keys.map Secret.content = keys'.map Secret.content)
    (tried : Nat) : searchFrom tryKey tried keys = searchFrom tryKey' tried keys' := by
  -- the count goes up with every key, so the induction is over all counts
  induction keys generalizing keys' tried with
  | nil =>
    rw [List.map_nil, eq_comm, List.map_eq_nil_iff] at hkeys
    rw [hkeys]
    rfl
  | cons key keys ih =>
    cases keys' with
    | nil => cases hkeys
    | cons key' keys' =>
      obtain ⟨hkey, hrest⟩ := List.cons.inj hkeys
      rw [searchFrom, searchFrom, htry key key' hkey]
      simp only [ih hrest]

theorem decryptWithAny_congr {keys keys' : List Secret}
    (hkeys : keys.map Secret.content = keys'.map Secret.content) (blob : Bytes) :
    decryptWithAny blob keys = decryptWithAny blob keys' :=
  searchFrom_congr (fun _ _ hk => decrypt_congr hk blob) hkeys 0

theorem decryptTextWithAny_congr {keys keys' : List Secret} (hs : s.content = s'.content)
    (hkeys : keys.map Secret.content = keys'.map Secret.content) :
    decryptTextWithAny s keys = decryptTextWithAny s' keys' :=
  searchFrom_congr (fun _ _ hk => decryptText_congr hs hk) hkeys 0

end Blob

namespace MasterKeys

theorem readSealed_congr {field field' : Option Secret}
    (hfield : Secret.contentOf field = Secret.contentOf field') (hk : k.content = k'.content) :
    readSealed field k = readSealed field' k' := by
  obtain ⟨hnone, hnone'⟩ | ⟨f, f', rfl, rfl, hf, hempty⟩ := Secret.cases_of_contentOf hfield
  · rw [readSealed_of_empty hnone, readSealed_of_empty hnone']
  · rw [readSealed, readSealed, hempty, Blob.decryptSealed_congr hf hk]

/-- The text of a key with this content. -/
def textIn (b : Bytes) : Except Failure String :=
  match Utf8.decode? b with
  | some s => .ok s
  | none => .error (.malformed .masterKeyNotUtf8)

theorem texts_eq (keys : List Secret) : texts keys = (keys.map Secret.content).mapM textIn := by
  -- the cases of `texts` are those of `textIn`, for the text of the content
  have hread (k : Secret) : (match k.text? with
      | some s => .ok s
      | none => .error (.malformed .masterKeyNotUtf8) : Except Failure String) =
        textIn k.content :=
    congrArg (fun t : Option String => match t with
      | some s => (.ok s : Except Failure String)
      | none => .error (.malformed .masterKeyNotUtf8)) k.text?_eq
  rw [List.mapM_map]
  exact congrArg (fun f => keys.mapM f) (funext hread)

theorem texts_congr {keys keys' : List Secret}
    (hkeys : keys.map Secret.content = keys'.map Secret.content) : texts keys = texts keys' := by
  rw [texts_eq, texts_eq, hkeys]

theorem encrypt_congr {keys keys' : List Secret}
    (hkeys : keys.map Secret.content = keys'.map Secret.content) (hk : k.content = k'.content)
    (version : RequestedVersion) : encrypt keys k version = encrypt keys' k' version := by
  rw [encrypt, encrypt, joinedText, joinedText, texts_congr hkeys]
  simp only [Blob.encryptText_congr rfl hk]

end MasterKeys

namespace PrivateKey

theorem readSealed_congr {field field' : Option Secret}
    (hfield : Secret.contentOf field = Secret.contentOf field') (hk : k.content = k'.content) :
    readSealed field k = readSealed field' k' := by
  obtain ⟨hnone, hnone'⟩ | ⟨f, f', rfl, rfl, hf, hempty⟩ := Secret.cases_of_contentOf hfield
  · rw [readSealed_of_empty hnone, readSealed_of_empty hnone']
  · rw [readSealed, readSealed, hempty, Blob.decryptSealed_congr hf hk]

end PrivateKey

namespace Credentials

theorem ofPassword_congr (hp : p.content = p'.content) : ofPassword p = ofPassword p' := by
  rw [ofPassword, ofPassword, hp]

theorem ofPasswordAndSalt_congr (hp : p.content = p'.content) (hs : s.content = s'.content) :
    ofPasswordAndSalt p s = ofPasswordAndSalt p' s' := by
  rw [ofPasswordAndSalt, ofPasswordAndSalt, PasswordKey.derive512_congr hp hs]

theorem forVersion_congr_password (version : RequestedVersion) (hp : p.content = p'.content)
    (salt : Except Failure (Option Secret)) :
    forVersion version p salt = forVersion version p' salt := by
  rw [forVersion_eq, forVersion_eq, ofPassword_congr hp]
  simp only [ofPasswordAndSalt_congr hp rfl]

/-- Without bytes a salt is as good as none, whatever the version. -/
theorem forVersion_of_empty (version : RequestedVersion) (password : Secret)
    {salt : Option Secret} (hsalt : ∀ s ∈ salt, s.content = []) :
    forVersion version password (.ok salt) = forVersion version password (.ok none) := by
  cases salt with
  | none => rfl
  | some s =>
    have hempty : s.isEmpty = true := Secret.isEmpty_iff.mpr (hsalt s rfl)
    rw [forVersion_eq, forVersion_eq, Action.ofExcept_ok_bind, Action.ofExcept_ok_bind]
    dsimp only
    rw [if_pos hempty]

/-- A salt that could not be read fails in the same way, but in the second version only. -/
theorem forVersion_congr_salt (version : RequestedVersion) (password : Secret)
    {salt salt' : Except Failure (Option Secret)}
    (hsalt : salt.map Secret.contentOf = salt'.map Secret.contentOf) :
    forVersion version password salt = forVersion version password salt' := by
  cases salt with
  | error e =>
    cases salt' with
    | error e' => rw [Except.error.inj hsalt]
    | ok b => cases hsalt
  | ok a =>
    cases salt' with
    | error e' => cases hsalt
    | ok b =>
      obtain ⟨hnone, hnone'⟩ | ⟨s, s', rfl, rfl, hs, hempty⟩ :=
        Secret.cases_of_contentOf (Except.ok.inj hsalt)
      · rw [forVersion_of_empty version password hnone, forVersion_of_empty version password hnone']
      · rw [forVersion_eq, forVersion_eq, Action.ofExcept_ok_bind, Action.ofExcept_ok_bind]
        dsimp only
        rw [hempty, ofPasswordAndSalt_congr rfl hs]

theorem forVersion_congr (version : RequestedVersion) (hp : p.content = p'.content)
    {salt salt' : Except Failure (Option Secret)}
    (hsalt : salt.map Secret.contentOf = salt'.map Secret.contentOf) :
    forVersion version p salt = forVersion version p' salt' :=
  (forVersion_congr_password version hp salt).trans (forVersion_congr_salt version p' hsalt)

end Credentials

namespace Link

theorem passwordHash_congr (hp : p.content = p'.content) (salt : Bytes) :
    passwordHash p salt = passwordHash p' salt := by
  rw [passwordHash, passwordHash, PasswordKey.derive512_congr hp rfl]

theorem hashPassword_congr (hp : p.content = p'.content) : hashPassword p = hashPassword p' := by
  rw [hashPassword_eq, hashPassword_eq]
  simp only [passwordHash_congr hp]

theorem newKey_congr (hk : k.content = k'.content) (version : RequestedVersion) :
    newKey k version = newKey k' version := by
  rw [newKey, newKey]
  simp only [Blob.encryptText_congr rfl hk]

end Link

end SealedMetadata
