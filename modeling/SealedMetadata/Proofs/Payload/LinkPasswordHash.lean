import SealedMetadata.Proofs.Account.LoginFlow
import SealedMetadata.Proofs.Bytes.HexDecoding
import SealedMetadata.Proofs.Payload.LinkPassword
import SealedMetadata.Proofs.Secret.SameContent

/-!
The hash of a link password can be made again from the password and the salt that is sent with it.
A change of a link sends such a hash whether it sets a password or not, and without a password it
is the hash of a fixed text: two changes under one salt differ in their hashes and in the state of
the password, and in nothing else.
-/

namespace SealedMetadata

namespace Link

/-- The hash of a password under a salt in hexadecimal, if the salt is that: the digest of the
hexadecimal text of the whole derived key. -/
def rehash (password : Secret) (salt : String) : Option String :=
  (Hex.decode? salt).map fun b =>
    Hex.encode (Sha512.digest (Utf8.encode (Hex.encode
      (PasswordKey.derive512 password (.bytes b) 200000))))

/-- A hash and a salt for a password, from so many drawn bytes: both are hexadecimal texts of fixed
lengths, the salt is that of the bytes, and the hash follows from the password and the salt. -/
structure HashesTo (password : Secret) (drawn : Bytes) (hash salt : String) : Prop where
  salt_eq : salt = Hex.encode drawn
  salt_lower : Hex.IsLower salt ∧ salt.length = 64
  salt_bytes : Hex.decode? salt = some drawn
  hash_lower : Hex.IsLower hash ∧ hash.length = 128
  derived : (PasswordKey.derive512 password (.bytes drawn) 200000).length = 64
  rehash_eq : rehash password salt = some hash

theorem rehash_encode (password : Secret) (salt : Bytes) :
    rehash password (Hex.encode salt) = some (passwordHash password salt) := by
  rw [rehash, Hex.decode?_encode, Option.map_some, Hex.utf8_encode]
  rfl

theorem hashesTo_passwordHash (password : Secret) {drawn : Bytes} (hdrawn : drawn.length = 32) :
    HashesTo password drawn (passwordHash password drawn) (Hex.encode drawn) where
  salt_eq := rfl
  salt_lower := by
    refine ⟨Hex.isLower_encode drawn, ?_⟩
    rw [Hex.length_encode, hdrawn]
  salt_bytes := Hex.decode?_encode drawn
  hash_lower := ⟨Hex.isLower_encode _, length_passwordHash password drawn⟩
  derived := PasswordKey.length_derive512 password (.bytes drawn) 200000
  rehash_eq := rehash_encode password drawn

end Link

namespace LinkEdit

/-- The fields that a change of a link sends. -/
def sentFields (apiKey uuid : Value) (button : DownloadButton) (expiration : Expiration)
    (password : Option Secret) : Vaulted Value := do
  let m ← new apiKey uuid button expiration password
  Vaulted.inspect fun v => m.toFields v

/-- Two changes of a link with one service key: both are sent, with fields that are related, if the
key is text, and else both fail in the same way. -/
def SentAlike (apiKey : Value) (v : Vault)
    (related : List (String × Value) → List (String × Value) → Prop)
    (o o' : Except Failure (Value × Vault)) : Prop :=
  ((∃ key, apiKey.sealable v = .ok (Utf8.encode key)) → ∃ fields fields' w,
    o = .ok (.record fields, w) ∧ o' = .ok (.record fields', w) ∧ related fields fields') ∧
  ((¬ ∃ key, apiKey.sealable v = .ok (Utf8.encode key)) → ∃ e, o = .error e ∧ o' = .error e)

/-- Fields that differ in the state of the password only, which is that of no password in the first
ones. -/
structure OnlyStateDiffers (fields fields' : List (String × Value)) : Prop where
  names : fields'.map Prod.fst = fields.map Prod.fst
  others : ∀ name, name ≠ "password" → fields'.lookup name = fields.lookup name
  unset : fields.lookup "password" = some (.text "empty")
  set : fields'.lookup "password" = some (.text "notempty")

/-- Fields with hashes of one length and with the same salt. -/
structure SameShape (fields fields' : List (String × Value)) : Prop where
  hashes : ∃ hash hash', fields.lookup "passwordHashed" = some (.text hash) ∧
    fields'.lookup "passwordHashed" = some (.text hash') ∧ hash.length = 128 ∧ hash'.length = 128
  salts : ∃ salt, fields.lookup "salt" = some (.text salt) ∧
    fields'.lookup "salt" = some (.text salt) ∧ salt.length = 64

/-- The fields of a change of a link that is sent with a service key, a state and a hash. -/
def fieldsWith (v : Vault) (key : String) (button : DownloadButton) (expiration : Expiration)
    (state : PasswordState) (hash salt : String) (uuid : Value) : List (String × Value) :=
  [("apiKey", .text key), ("downloadBtn", .text (Choice.text button)),
    ("expiration", .text (Choice.text expiration)), ("password", .text (Choice.text state)),
    ("passwordHashed", .text hash), ("salt", .text salt), ("uuid", .text (uuid.display v))]

/-- The state that goes with a password or none. -/
def stateOf (password : Option Secret) : PasswordState :=
  if password.isSome then .notEmpty else .empty

section Sent

variable {apiKey : Value} {v : Vault} (uuid : Value) (button : DownloadButton)
  (expiration : Expiration)

theorem run_hash_bind {α : Type} (password : Secret) (f : String × String → Vaulted α)
    (r : RandomSource) :
    ((Vaulted.perform (Link.hashPassword password) >>= f).run v).run r =
      ((f (Link.passwordHash password (r.peek 32), Hex.encode (r.peek 32))).run v).run
        (r.advance 32) :=
  Vaulted.run_bind_of_silent f rfl

/-- A change of a link follows from its service key, its password and the next random bytes. -/
theorem run_new {content : Bytes} (hcontent : apiKey.sealable v = .ok content)
    (password : Option Secret) (r : RandomSource) :
    ((new apiKey uuid button expiration password).run v).run r =
      ⟨.ok (⟨(v.add .text content).1, button, expiration, stateOf password,
        .text (Link.passwordHash (password.getD (.text Link.noPassword)) (r.peek 32)),
        .text (Hex.encode (r.peek 32)), uuid⟩, (v.add .text content).2), [], r.advance 32⟩ := by
  -- nothing is drawn after the hash, and what is sealed is the key of the service alone
  rw [new, run_hash_bind, ofParts, Vaulted.run_bind_of_silent _ (Vaulted.run_inspect hcontent _)]
  rfl

theorem run_sentFields {key : String} (hkey : apiKey.sealable v = .ok (Utf8.encode key))
    (password : Option Secret) (r : RandomSource) :
    ((sentFields apiKey uuid button expiration password).run v).run r =
      ⟨.ok (.record (fieldsWith (v.add .text (Utf8.encode key)).2 key button expiration
        (stateOf password) (Link.passwordHash (password.getD (.text Link.noPassword)) (r.peek 32))
        (Hex.encode (r.peek 32)) uuid), (v.add .text (Utf8.encode key)).2), [], r.advance 32⟩ := by
  have htext : (v.add .text (Utf8.encode key)).1.text (v.add .text (Utf8.encode key)).2 =
      .ok key :=
    Sealed.text_of_content (Vault.content_add_new v .text _)
  rw [sentFields, Vaulted.run_bind_of_silent _ (run_new uuid button expiration hkey password r)]
  apply Vaulted.run_inspect
  rw [toFields, htext]
  rfl

/-- A service key that is no text fails every change of a link in one way. -/
theorem exists_failure (hkey : ¬ ∃ key, apiKey.sealable v = .ok (Utf8.encode key)) :
    ∃ e, ∀ password r,
      (((sentFields apiKey uuid button expiration password).run v).run r).result = .error e := by
  cases hcontent : apiKey.sealable v with
  | error e =>
    refine ⟨e, ?_⟩
    intro password r
    -- the hash comes first, but it never fails
    rw [sentFields, new, bind_assoc, run_hash_bind, ofParts, bind_assoc,
      Vaulted.run_inspect_bind_of_error hcontent]
  | ok content =>
    have hnone : Utf8.decode? content = none := by
      rw [Option.eq_none_iff_forall_ne_some]
      intro key hdecode
      rw [Utf8.decode?_eq_some_iff] at hdecode
      exact hkey ⟨key, hcontent.trans (congrArg Except.ok hdecode)⟩
    have htext : (v.add .text content).1.text (v.add .text content).2 = .error .undecodable := by
      rw [Sealed.text, Vault.content_add_new, hnone]
    refine ⟨.undecodable, ?_⟩
    intro password r
    -- the request is made, and only sending it asks for text
    rw [sentFields,
      Vaulted.run_bind_of_silent _ (run_new uuid button expiration hcontent password r),
      Vaulted.run_inspect_of_error]
    rw [toFields, htext]
    rfl

/-- Two changes of a link are sent alike, whatever is true of the fields that both of them send
with a service key that is text. -/
theorem sentAlike_of_related {related : List (String × Value) → List (String × Value) → Prop}
    {password password' : Option Secret} {r r' : RandomSource}
    (h : ∀ w key, related
      (fieldsWith w key button expiration (stateOf password)
        (Link.passwordHash (password.getD (.text Link.noPassword)) (r.peek 32))
        (Hex.encode (r.peek 32)) uuid)
      (fieldsWith w key button expiration (stateOf password')
        (Link.passwordHash (password'.getD (.text Link.noPassword)) (r'.peek 32))
        (Hex.encode (r'.peek 32)) uuid)) :
    SentAlike apiKey v related
      (((sentFields apiKey uuid button expiration password).run v).run r).result
      (((sentFields apiKey uuid button expiration password').run v).run r').result := by
  refine ⟨?_, ?_⟩
  · rintro ⟨key, hkey⟩
    rw [run_sentFields uuid button expiration hkey, run_sentFields uuid button expiration hkey]
    exact ⟨_, _, _, rfl, rfl, h _ key⟩
  · intro hkey
    obtain ⟨e, he⟩ := exists_failure uuid button expiration hkey
    exact ⟨e, he password r, he password' r'⟩

end Sent

theorem onlyStateDiffers_fieldsWith (w : Vault) (key : String) (button : DownloadButton)
    (expiration : Expiration) (hash salt : String) (uuid : Value) :
    OnlyStateDiffers (fieldsWith w key button expiration .empty hash salt uuid)
      (fieldsWith w key button expiration .notEmpty hash salt uuid) where
  names := rfl
  others := by
    intro name hname
    have hstate : (name == "password") = false := beq_eq_false_iff_ne.mpr hname
    simp only [fieldsWith, List.lookup_cons, hstate]
  unset := rfl
  set := rfl

theorem sameShape_fieldsWith (w : Vault) (key : String) (button : DownloadButton)
    (expiration : Expiration) (state state' : PasswordState) (password password' : Secret)
    {salt : Bytes} (hsalt : salt.length = 32) (uuid : Value) :
    SameShape
      (fieldsWith w key button expiration state (Link.passwordHash password salt)
        (Hex.encode salt) uuid)
      (fieldsWith w key button expiration state' (Link.passwordHash password' salt)
        (Hex.encode salt) uuid) where
  hashes := ⟨_, _, rfl, rfl, Link.length_passwordHash _ _, Link.length_passwordHash _ _⟩
  salts := by
    refine ⟨_, rfl, rfl, ?_⟩
    rw [Hex.length_encode, hsalt]

end LinkEdit

/-- A link password and thirty-two random bytes give a salt, which is the hexadecimal text of the
bytes, and a hash that can be made again from the password and that salt. Under the same random
bytes, a change of a link without a password sends what one with the password "empty" sends, but
for the state of the password; and changes with any two passwords, or none, send one salt and
hashes of one length. -/
theorem link_hashes_can_be_checked_and_look_alike :
    (∀ (password : Secret) (r : RandomSource), ∃ hash salt,
      (Link.hashPassword password).run r = ⟨.ok (hash, salt), [], r.advance 32⟩ ∧
      Link.HashesTo password (r.peek 32) hash salt) ∧
    ∀ (apiKey uuid : Value) (button : DownloadButton) (expiration : Expiration) (v : Vault)
      (r r' : RandomSource), r'.peek 32 = r.peek 32 →
      (∀ placeholder : Secret, placeholder.content = Utf8.encode "empty" →
        LinkEdit.SentAlike apiKey v LinkEdit.OnlyStateDiffers
          (((LinkEdit.sentFields apiKey uuid button expiration none).run v).run r).result
          (((LinkEdit.sentFields apiKey uuid button expiration (some placeholder)).run v).run
            r').result) ∧
      ∀ password password' : Option Secret,
        LinkEdit.SentAlike apiKey v LinkEdit.SameShape
          (((LinkEdit.sentFields apiKey uuid button expiration password).run v).run r).result
          (((LinkEdit.sentFields apiKey uuid button expiration password').run v).run
            r').result := by
  refine ⟨?_, ?_⟩
  · intro password r
    have hdrawn := r.length_peek 32
    exact ⟨_, _, rfl, Link.hashesTo_passwordHash password hdrawn⟩
  · intro apiKey uuid button expiration v r r' hsame
    refine ⟨?_, ?_⟩
    · intro placeholder hplaceholder
      apply LinkEdit.sentAlike_of_related
      intro w key
      -- a placeholder in any form is the fixed text that stands for no password
      have hhash : Link.passwordHash placeholder (r'.peek 32) =
          Link.passwordHash (.text Link.noPassword) (r.peek 32) := by
        rw [hsame]
        exact Link.passwordHash_congr hplaceholder _
      rw [Option.getD_some, Option.getD_none, hhash, hsame]
      exact LinkEdit.onlyStateDiffers_fieldsWith w key button expiration _ _ uuid
    · intro password password'
      apply LinkEdit.sentAlike_of_related
      intro w key
      rw [hsame]
      exact LinkEdit.sameShape_fieldsWith w key button expiration _ _ _ _ (r.length_peek 32) uuid

/-- Two sources that differ from the thirty-third byte on, and the placeholder in a sealed value. -/
theorem placeholder_password_sent_as_none :
    ∃ fields fields' w,
      (((LinkEdit.sentFields (.text "api") (.text "link") .enable .never none).run .empty).run
        (.cycle (List.replicate 32 7))).result = .ok (.record fields, w) ∧
      (((LinkEdit.sentFields (.text "api") (.text "link") .enable .never
        (some (.sealedText (Utf8.encode "empty")))).run .empty).run
        (.cycle (List.replicate 32 7 ++ [1]))).result = .ok (.record fields', w) ∧
      LinkEdit.OnlyStateDiffers fields fields' := by
  have hsame : (RandomSource.cycle (List.replicate 32 7 ++ [1])).peek 32 =
      (RandomSource.cycle (List.replicate 32 7)).peek 32 := by decide
  have hsent := link_hashes_can_be_checked_and_look_alike.2 (.text "api") (.text "link") .enable
    .never .empty _ _ hsame
  exact (hsent.1 (.sealedText (Utf8.encode "empty")) rfl).1 ⟨"api", rfl⟩

end SealedMetadata
