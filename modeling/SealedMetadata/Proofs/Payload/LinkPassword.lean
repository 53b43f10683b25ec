import SealedMetadata.Payload.Model
import SealedMetadata.Proofs.Session.Vaulted

/-!
Link passwords on their way from a request to the status of the link. A request that sets a
password is reported as one. A new link, which has none, is reported without. A change of a link
that sets none is reported with a password nevertheless: it sends a salted hash, and a status
knows the absence of a password by one unsalted hash only, which is never equal to a salted one.
-/

namespace SealedMetadata

namespace Link

theorem length_passwordHash (password : Secret) (salt : Bytes) :
    (passwordHash password salt).length = 128 := by
  rw [passwordHash, Hex.length_encode, Sha512.length_digest]

theorem length_noPasswordHash : noPasswordHash.length = 40 :=
  Fingerprint.length_short _

/-- A salted hash is no hash that stands for an absent password, not even that of its text. -/
theorem passwordHash_ne (password : Secret) (salt : Bytes) :
    passwordHash password salt ≠ noPasswordHash := by
  -- already their lengths differ
  intro h
  have hlength := length_passwordHash password salt
  rw [h, length_noPasswordHash] at hlength
  cases hlength

end Link

namespace LinkStatus

/-- The status of a link to which the service has this hash. -/
theorem ofFields_of_hash (w : Vault) {hash : String} (hlong : 0 < hash.length) :
    ofFields w (.record [("exists", .bool true), ("password", .text hash)]) =
      .ok ⟨true, none, .none, .none, none, none, .text hash⟩ := by
  have hkept : (Value.text hash).orNone w = .text hash := by
    rw [Value.orNone, if_pos]
    rw [Value.countsAsTrue, Bool.not_eq_true', ← Bool.not_eq_true, String.isEmpty_iff]
    rintro rfl
    cases hlong
  have hread : ofFields w (.record [("exists", .bool true), ("password", .text hash)]) =
      .ok ⟨true, none, .none, .none, none, none, (Value.text hash).orNone w⟩ := rfl
  rw [hread, hkept]

theorem hasPassword_of_hash (w : Vault) (hash : String) :
    hasPassword w ⟨true, none, .none, .none, none, none, .text hash⟩ = true ↔
      hash ≠ Link.noPasswordHash := by
  have hsame : (Value.text hash).same w (.text Link.noPasswordHash) =
      (hash == Link.noPasswordHash) := by
    rw [Value.same.eq_def]
  rw [hasPassword]
  dsimp only
  rw [hsame, Bool.not_eq_true', beq_eq_false_iff_ne]

end LinkStatus

namespace Model

/-- The status of a link whose hash is the one that a request sends. -/
def reportedStatus (w : Vault) (m : Model) : Except Failure LinkStatus := do
  let data ← m.toFields w
  let fields ← match data.fields? with
    | some fields => .ok fields
    | none => .error .wrongType
  let hashed ← match fields.lookup "passwordHashed" with
    | some value => .ok value
    | none => .error (.missingField "passwordHashed")
  LinkStatus.ofFields w (.record [("exists", .bool true), ("password", hashed)])

/-- A request asks for a password on the link. -/
def AsksPassword (m : Model) : Prop :=
  m.attributes.lookup "password" = some (Choice.toValue PasswordState.notEmpty)

/-- A request changes a link that is there already. -/
def IsChange (m : Model) : Prop := ∃ edit, m = .linkEdit edit

/-- The status of a link tells of a password exactly if the request asks for one. -/
def ReportedAsAsked (w : Vault) (m : Model) : Prop :=
  ∃ s, reportedStatus w m = .ok s ∧ (s.hasPassword w = true ↔ AsksPassword m)

end Model

theorem Model.exists_reported_of_hash {w : Vault} {m : Model} {fields : List (String × Value)}
    {hash : String} (hfields : m.toFields w = .ok (.record fields))
    (hsent : fields.lookup "passwordHashed" = some (.text hash)) (hlong : 0 < hash.length) :
    ∃ s, reportedStatus w m = .ok s ∧ (s.hasPassword w = true ↔ hash ≠ Link.noPasswordHash) := by
  refine ⟨_, ?_, LinkStatus.hasPassword_of_hash w hash⟩
  rw [← LinkStatus.ofFields_of_hash w hlong, reportedStatus, hfields]
  simp only [bind, Except.bind, Value.fields?, hsent]

theorem Sealed.exists_text_of_bind_ok {α : Type} {w : Vault} {s : Sealed}
    {f : String → Except Failure α} {a : α} (h : (s.text w >>= f) = .ok a) :
    ∃ t, s.text w = .ok t := by
  cases ht : s.text w with
  | error e =>
    rw [ht] at h
    cases h
  | ok t => exact ⟨t, rfl⟩

-- the key of the service is the only part that can keep either request from being sent
theorem LinkEdit.exists_sent_hash {w : Vault} {m : LinkEdit} {data : Value}
    (h : m.toFields w = .ok data) :
    ∃ fields, (Model.linkEdit m).toFields w = .ok (.record fields) ∧
      fields.lookup "passwordHashed" = some m.passwordHashed := by
  obtain ⟨key, hkey⟩ := Sealed.exists_text_of_bind_ok h
  rw [Model.toFields, toFields, hkey]
  exact ⟨_, rfl, rfl⟩

theorem LinkAdd.exists_sent_hash {w : Vault} {m : LinkAdd} {data : Value}
    (h : m.toFields w = .ok data) :
    ∃ fields, (Model.linkAdd m).toFields w = .ok (.record fields) ∧
      fields.lookup "passwordHashed" = some (.text Link.noPasswordHash) := by
  obtain ⟨key, hkey⟩ := Sealed.exists_text_of_bind_ok h
  rw [Model.toFields, toFields, hkey]
  exact ⟨_, rfl, rfl⟩

theorem PasswordState.toValue_ne :
    Choice.toValue PasswordState.empty ≠ Choice.toValue PasswordState.notEmpty := by
  intro h
  have hlabel := (Value.member.inj h).2.1
  exact absurd hlabel (by decide)

theorem LinkEdit.asksPassword_iff (m : LinkEdit) :
    Model.AsksPassword (.linkEdit m) ↔ m.password = .notEmpty := by
  have hlookup : (Model.linkEdit m).attributes.lookup "password" =
      some (Choice.toValue m.password) := rfl
  rw [Model.AsksPassword, hlookup]
  cases m.password with
  | empty =>
    refine ⟨fun h => ?_, fun h => ?_⟩
    · exact absurd (Option.some.inj h) PasswordState.toValue_ne
    · cases h
  | notEmpty => exact ⟨fun _ => rfl, fun _ => rfl⟩

theorem LinkAdd.not_asksPassword (m : LinkAdd) : ¬ Model.AsksPassword (.linkAdd m) := by
  intro h
  have hlookup : (Model.linkAdd m).attributes.lookup "password" =
      some (Choice.toValue PasswordState.empty) := rfl
  rw [Model.AsksPassword, hlookup] at h
  exact PasswordState.toValue_ne (Option.some.inj h)

/-- A change of a link made by `new`: its state tells whether it has a password, and its hash is
a salted one, with or without a password. -/
theorem LinkEdit.parts_of_new {apiKey uuid : Value} {button : DownloadButton}
    {expiration : Expiration} {password : Option Secret} {v v' : Vault} {r : RandomSource}
    {m : LinkEdit}
    (h : (((new apiKey uuid button expiration password).run v).run r).result = .ok (m, v')) :
    (m.password = .notEmpty ↔ password.isSome = true) ∧
      ∃ salt, m.passwordHashed =
        .text (Link.passwordHash (password.getD (.text Link.noPassword)) salt) := by
  obtain ⟨hashed, v₁, r₁, hhashed, hparts⟩ := Vaulted.exists_of_bind_ok h
  obtain ⟨content, v₂, r₂, -, hkey⟩ := Vaulted.exists_of_bind_ok hparts
  obtain ⟨key, v₃, r₃, -, hmade⟩ := Vaulted.exists_of_bind_ok hkey
  cases hhashed
  cases hmade
  refine ⟨?_, _, rfl⟩
  cases password with
  | none => exact ⟨fun h => (by cases h), fun h => (by cases h)⟩
  | some p => exact ⟨fun _ => rfl, fun _ => rfl⟩

theorem Model.exists_reported_linkEdit {w : Vault} {m : LinkEdit} {data : Value}
    (hdata : m.toFields w = .ok data) {password : Secret} {salt : Bytes}
    (hhash : m.passwordHashed = .text (Link.passwordHash password salt)) :
    ∃ s, reportedStatus w (.linkEdit m) = .ok s ∧ s.hasPassword w = true := by
  have hlong : 0 < (Link.passwordHash password salt).length := by
    rw [Link.length_passwordHash]
    decide
  obtain ⟨fields, hfields, hsent⟩ := LinkEdit.exists_sent_hash hdata
  rw [hhash] at hsent
  obtain ⟨s, hs, hiff⟩ := exists_reported_of_hash hfields hsent hlong
  exact ⟨s, hs, hiff.mpr (Link.passwordHash_ne password salt)⟩

theorem Model.exists_reported_linkAdd {w : Vault} {m : LinkAdd} {data : Value}
    (hdata : m.toFields w = .ok data) :
    ∃ s, reportedStatus w (.linkAdd m) = .ok s ∧ s.hasPassword w = false := by
  have hlong : 0 < Link.noPasswordHash.length := by
    rw [Link.length_noPasswordHash]
    decide
  obtain ⟨fields, hfields, hsent⟩ := LinkAdd.exists_sent_hash hdata
  obtain ⟨s, hs, hiff⟩ := exists_reported_of_hash hfields hsent hlong
  refine ⟨s, hs, ?_⟩
  rw [← Bool.not_eq_true, hiff]
  exact fun h => h rfl

theorem Model.reportedAsAsked_iff {w : Vault} {m : Model} {s : LinkStatus}
    (hs : reportedStatus w m = .ok s) :
    ReportedAsAsked w m ↔ (s.hasPassword w = true ↔ AsksPassword m) := by
  constructor
  · rintro ⟨s', hs', hiff⟩
    rw [hs] at hs'
    cases hs'
    exact hiff
  · intro hiff
    exact ⟨s, hs, hiff⟩

/-- A request that `new` makes for a link, and the password that it is to set. -/
inductive MadeByNew : Option Secret → Model → Prop
  | edit {apiKey uuid : Value} {button : DownloadButton} {expiration : Expiration}
      {password : Option Secret} {v v' : Vault} {r : RandomSource} {m : LinkEdit}
      (h : (((LinkEdit.new apiKey uuid button expiration password).run v).run r).result =
        .ok (m, v')) : MadeByNew password (.linkEdit m)
  | add {apiKey uuid metadata parent : Value} {kind : ItemKind} {masterKey : Secret}
      {linkKey : Option Secret} {version : Option RequestedVersion} {v v' : Vault}
      {r : RandomSource} {m : LinkAdd}
      (h : (((LinkAdd.new apiKey uuid metadata parent kind masterKey linkKey version).run v).run
        r).result = .ok (m, v')) : MadeByNew none (.linkAdd m)

/-- What a status tells of a password after a request that can be sent. After each change of a
link it tells of one, and after each new link of none. So it tells what was asked, except after
a change that sets no password. -/
theorem reported_password_of_request {password : Option Secret} {m : Model} {w : Vault}
    {data : Value} (hnew : MadeByNew password m) (hdata : m.toFields w = .ok data) :
    (Model.AsksPassword m ↔ password.isSome = true) ∧
      (∃ s, Model.reportedStatus w m = .ok s ∧ (s.hasPassword w = true ↔ m.IsChange)) ∧
      (Model.ReportedAsAsked w m ↔ (m.IsChange → password.isSome = true)) := by
  cases hnew with
  | @edit _ _ _ _ _ _ _ _ m h =>
    obtain ⟨hstate, salt, hhash⟩ := LinkEdit.parts_of_new h
    obtain ⟨s, hs, hpassword⟩ := Model.exists_reported_linkEdit hdata hhash
    have hchange : Model.IsChange (.linkEdit m) := ⟨m, rfl⟩
    have hasks := (LinkEdit.asksPassword_iff m).trans hstate
    refine ⟨hasks, ⟨s, hs, fun _ => hchange, fun _ => hpassword⟩, ?_⟩
    rw [Model.reportedAsAsked_iff hs, hpassword, hasks]
    exact ⟨fun h _ => h.mp rfl, fun h => ⟨fun _ => h hchange, fun _ => rfl⟩⟩
  | @add _ _ _ _ _ _ _ _ _ _ _ m h =>
    obtain ⟨s, hs, hnone⟩ := Model.exists_reported_linkAdd hdata
    have hnew : ¬ Model.IsChange (.linkAdd m) := by
      rintro ⟨edit, hedit⟩
      cases hedit
    have hasks := LinkAdd.not_asksPassword m
    have hunset : ¬ s.hasPassword w = true := by
      rw [hnone]
      exact Bool.false_ne_true
    refine ⟨⟨fun h => absurd h hasks, fun h => by cases h⟩,
      ⟨s, hs, fun h => absurd h hunset, fun h => absurd h hnew⟩, ?_⟩
    rw [Model.reportedAsAsked_iff hs]
    exact ⟨fun _ h => absurd h hnew, fun _ => ⟨fun h => absurd h hunset, fun h => absurd h hasks⟩⟩

/-- A change of a link, under a salt of zeros. -/
def zeroSaltEdit (password : Option Secret) : Outcome (LinkEdit × Vault) :=
  ((LinkEdit.new (.text "api") (.uuid ⟨0x1b2c9bd66a3f4c6e9b691f9a3a1e0a11⟩) .enable .never
    password).run .empty).run (.cycle [])

/-- A new link to a file, with an empty link key in the first format. -/
def emptyKeyAdd : Outcome (LinkAdd × Vault) :=
  ((LinkAdd.new (.text "api") (.text "item") (.text "metadata") (.text "base") .file (.text "key")
    (some (.text "")) (some (.ofInt 1))).run .empty).run (.cycle [])

set_option maxRecDepth 8000 in
/-- A change of a link that sets a password, which is reported; and a new link, on which none is
reported. -/
theorem set_password_reported :
    (∃ m v' data, (zeroSaltEdit (some (.text "secret"))).result = .ok (m, v') ∧
      m.toFields v' = .ok data ∧ Model.ReportedAsAsked v' (.linkEdit m)) ∧
    (∃ m v' data, emptyKeyAdd.result = .ok (m, v') ∧
      m.toFields v' = .ok data ∧ Model.ReportedAsAsked v' (.linkAdd m)) := by
  refine ⟨?_, ?_⟩
  · obtain ⟨m, v', data, hnew, hdata⟩ : ∃ m v' data,
        (zeroSaltEdit (some (.text "secret"))).result = .ok (m, v') ∧ m.toFields v' = .ok data :=
      ⟨_, _, _, rfl, rfl⟩
    obtain ⟨-, -, hiff⟩ := reported_password_of_request (MadeByNew.edit hnew) hdata
    exact ⟨m, v', data, hnew, hdata, hiff.mpr fun _ => rfl⟩
  · obtain ⟨m, v', data, hnew, hdata⟩ : ∃ m v' data,
        emptyKeyAdd.result = .ok (m, v') ∧ m.toFields v' = .ok data := ⟨_, _, _, rfl, rfl⟩
    obtain ⟨-, -, hiff⟩ := reported_password_of_request (MadeByNew.add hnew) hdata
    exact ⟨m, v', data, hnew, hdata, hiff.mpr fun ⟨_, h⟩ => by cases h⟩

/-- A change of a link without a password, after which the status tells of one. -/
theorem absent_password_reported_as_set :
    ∃ m v' data s, (zeroSaltEdit none).result = .ok (m, v') ∧ m.toFields v' = .ok data ∧
      Model.reportedStatus v' (.linkEdit m) = .ok s ∧ s.hasPassword v' = true ∧
      ¬ Model.AsksPassword (.linkEdit m) := by
  obtain ⟨m, v', data, hnew, hdata⟩ : ∃ m v' data,
      (zeroSaltEdit none).result = .ok (m, v') ∧ m.toFields v' = .ok data := ⟨_, _, _, rfl, rfl⟩
  obtain ⟨hstate, salt, hhash⟩ := LinkEdit.parts_of_new hnew
  obtain ⟨s, hs, hpassword⟩ := Model.exists_reported_linkEdit hdata hhash
  refine ⟨m, v', data, s, hnew, hdata, hs, hpassword, ?_⟩
  rw [LinkEdit.asksPassword_iff, hstate]
  exact Bool.false_ne_true

end SealedMetadata
