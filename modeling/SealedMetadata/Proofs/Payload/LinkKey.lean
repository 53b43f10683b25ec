import SealedMetadata.Payload.LinkAdd
import SealedMetadata.Payload.LinkStatus
import SealedMetadata.Proofs.Account.MasterKeySet
import SealedMetadata.Proofs.Blob.FieldSearch
import SealedMetadata.Proofs.Payload.LinkPassword
import SealedMetadata.Proofs.Uuid

/-!
Link keys on their way from a request to the status of the link. The key of a new link is kept
nowhere but in the field that the request sends, encrypted with the last master key. From the
status the link's identifier, its life time and its key are had again, as long as that master key
is tried and all keys before it fail to decrypt.
-/

namespace SealedMetadata

open MasterKeys (Supported IsText)

theorem Alphanumeric.isAlphanum_pick (b : UInt8) :
    (Char.ofNat (pick b).toNat).isAlphanum = true := by
  revert b
  apply forall_byte
  decide +kernel

/-- Drawn symbols are a text of so many letters and digits. -/
theorem Alphanumeric.exists_drawText (count : Nat) (r : RandomSource) :
    ∃ t, (drawText count).run r = ⟨.ok t, [], r.advance count⟩ ∧
      Utf8.encode t = (r.peek count).map pick ∧
      t.length = count ∧ ∀ c ∈ t.toList, c.isAlphanum = true := by
  refine ⟨_, rfl, ?_, ?_, ?_⟩
  · apply Utf8.encode_ofList_of_lt
    intro x hx
    obtain ⟨b, -, rfl⟩ := List.mem_map.mp hx
    exact pick_lt b
  · rw [String.length_ofList, List.length_map, List.length_map, RandomSource.length_peek]
  · intro c hc
    rw [String.toList_ofList, List.map_map] at hc
    obtain ⟨b, -, rfl⟩ := List.mem_map.mp hc
    exact isAlphanum_pick b

namespace LinkStatus

/-- The status of a link with this identifier, key and life time. -/
theorem ofFields_of_parts (w : Vault) (u : Uuid) {field : String} (hfield : field ≠ "")
    (expiration : Expiration) :
    ofFields w (.record [("exists", .bool true), ("uuid", .text u.text), ("key", .text field),
      ("expirationText", .text (Choice.text expiration))]) =
        .ok ⟨true, some u, .text field, .none, some expiration, none, .none⟩ := by
  have hnonempty {t : String} (ht : t ≠ "") : (Value.text t).countsAsTrue w = true := by
    rw [Value.countsAsTrue, Bool.not_eq_true', ← Bool.not_eq_true, String.isEmpty_iff]
    exact ht
  have htext : u.text ≠ "" := by
    intro h
    have hdigits := Uuid.bareDigits_text u
    have hnone : Uuid.bareDigits "" = [] := by decide
    rw [h, hnone] at hdigits
    have hlength := Uuid.length_digits u
    rw [← hdigits] at hlength
    cases hlength
  have huuid : readUuid w (.text u.text) = .ok (some u) := by
    rw [readUuid, hnonempty htext, Uuid.ofText_text]
    rfl
  have hexpiration : readExpiration w (.text (Choice.text expiration)) = .ok (some expiration) := by
    cases expiration <;> rfl
  have hread (spelled : String) : ofFields w (.record [("exists", .bool true),
      ("uuid", .text spelled), ("key", .text field),
      ("expirationText", .text (Choice.text expiration))]) =
        (do
          let linkUuid ← readUuid w (.text spelled)
          let expirationText ← readExpiration w (.text (Choice.text expiration))
          return ⟨true, linkUuid, (Value.text field).orNone w, .none, expirationText, none,
            .none⟩) := rfl
  rw [hread, huuid, hexpiration, Value.orNone, if_pos (hnonempty hfield)]
  rfl

/-- A link's key is found by the first master key that opens its field, if those before it fail
to decrypt. -/
theorem result_decryptLinkKey (w : Vault) {s : LinkStatus} {field : String}
    (hfield : s.keyMetadata = .text field) {front back : List Secret} {key : Secret}
    {r : RandomSource} {t : String} (hopens : Blob.fieldReading (Utf8.encode field) key = .ok t)
    (hfront : ∀ k ∈ front, Blob.FailsOnField (.text field) k r) :
    ((s.decryptLinkKey w (front ++ key :: back)).run r).result = .ok (some t) := by
  have hends : Blob.endsSearch (Blob.fieldReading (Utf8.encode field) key) = true := by
    rw [hopens]
    rfl
  have hfind : (front ++ key :: back).find?
      (fun k => Blob.endsSearch (Blob.fieldReading (Utf8.encode field) k)) = some key := by
    refine List.find?_eq_some_iff_append.mpr ⟨hends, front, back, rfl, ?_⟩
    intro k hk
    have hmoves : Blob.endsSearch (Blob.fieldReading (Utf8.encode field) k) = false :=
      Blob.endsSearch_eq_false_iff.mpr (hfront k hk)
    rw [hmoves]
    rfl
  obtain ⟨tried, hsearch⟩ : ∃ tried, Blob.Search.ofAnswers
      (Blob.fieldReading (Utf8.encode field)) 0 (front ++ key :: back) = ⟨tried, .ok t⟩ :=
    Blob.Search.exists_ofAnswers_eq_iff.mpr ⟨key, hfind, hopens⟩
  have hany := Blob.result_decryptTextWithAny (.text field) (front ++ key :: back) r
  have hkeys : (front ++ key :: back).isEmpty = false := by
    cases front <;> rfl
  have hsecret : (Value.text field).toSecret w "bytes" = .ok (.text field) := rfl
  rw [Secret.content, hsearch] at hany
  have hrun : s.decryptLinkKey w (front ++ key :: back) = (do
      let search ← Blob.decryptTextWithAny (.text field) (front ++ key :: back)
      let key ← Action.ofExcept search.result
      return some key) := by
    simp only [decryptLinkKey, hfield, hkeys, hsecret, Action.ofExcept_ok_bind]
    rfl
  rw [hrun, Action.result_bind, hany]
  rfl

end LinkStatus

namespace LinkAdd

/-- The bytes of a new link's key: the given one, or thirty-two drawn symbols. -/
def keyBytes (linkKey : Option Secret) (r : RandomSource) : Bytes :=
  match linkKey with
  | none => (r.peek 32).map Alphanumeric.pick
  | some key => key.content

/-- The field for a new link's key, in either way of having one. -/
theorem exists_keyField {linkKey : Option Secret} (hlink : ∀ k ∈ linkKey, IsText k)
    {requested : RequestedVersion} (hversion : Supported requested) (masterKey : Secret)
    (r : RandomSource) :
    ∃ field t, ((keyField linkKey masterKey requested).run r).result = .ok field ∧ field ≠ "" ∧
      Utf8.encode t = keyBytes linkKey r ∧
      (linkKey = none → t.length = 32 ∧ ∀ c ∈ t.toList, c.isAlphanum = true) ∧
      ∀ key : Secret, key.content = masterKey.content →
        Blob.fieldReading (Utf8.encode field) key = .ok t := by
  obtain ⟨v, hv⟩ := hversion
  cases linkKey with
  | none =>
    obtain ⟨t, hdraw, hbytes, hlength, halphanum⟩ := Alphanumeric.exists_drawText 32 r
    -- the encryption draws behind the key
    obtain ⟨field, hfield, hne, hread⟩ := Blob.exists_field_of_text hv t masterKey (r.advance 32)
    refine ⟨field, t, ?_, hne, hbytes, fun _ => ⟨hlength, halphanum⟩, ?_⟩
    · rw [keyField, Link.newKey]
      simp only [Action.result_bind, hdraw, hfield]
      rfl
    · intro key hkey
      rw [← hread key r hkey, Blob.result_decryptText_eq, Secret.content]
  | some k =>
    obtain ⟨t, ht⟩ := hlink k rfl
    obtain ⟨field, hfield, hne, hread⟩ := Blob.exists_field_of_text hv t masterKey r
    refine ⟨field, t, ?_, hne, ht, fun h => (by cases h), ?_⟩
    · rw [Blob.result_encryptText hv, Secret.content, ht] at hfield
      rw [keyField, Blob.result_encryptText hv, hfield]
    · intro key hkey
      rw [← hread key r hkey, Blob.result_decryptText_eq, Secret.content]

/-- A request is made once its service key and the field with the link's key are there. The
identifier is drawn behind what the field has drawn. -/
theorem result_new {apiKey : Value} {content : Bytes} {v : Vault}
    (hapi : apiKey.sealable v = .ok content) {linkKey : Option Secret} {masterKey : Secret}
    {version : Option RequestedVersion} {r r' : RandomSource} {field : String}
    {events : List Log.Event}
    (hfield : (keyField linkKey masterKey
      (version.getD Settings.default.metadataVersion.request)).run r = ⟨.ok field, events, r'⟩)
    (uuid metadata parent : Value) (linkType : ItemKind) :
    (((new apiKey uuid metadata parent linkType masterKey linkKey version).run v).run r).result =
      .ok (⟨(v.add .text content).1, .enable, .never, .text field,
        .uuid (Uuid.ofRandomBytes (r'.peek 16)), metadata, parent, linkType, uuid⟩,
        (v.add .text content).2) := by
  have hok := congrArg Outcome.result hfield
  rw [new, Vaulted.result_perform_bind _ hok, hfield, ofParts,
    Vaulted.run_bind_of_silent _ (Vaulted.run_inspect hapi _)]
  rfl

/-- A field that a request sends. -/
def sent (w : Vault) (m : LinkAdd) (name : String) : Except Failure Value := do
  let data ← m.toFields w
  match data.fields?.bind (·.lookup name) with
  | some value => .ok value
  | none => .error (.missingField name)

/-- The status of a link that was made as the request asks. -/
def reportedStatus (w : Vault) (m : LinkAdd) : Except Failure LinkStatus := do
  let uuid ← m.sent w "linkUUID"
  let key ← m.sent w "key"
  let expiration ← m.sent w "expiration"
  LinkStatus.ofFields w (.record [("exists", .bool true), ("uuid", uuid), ("key", key),
    ("expirationText", expiration)])

theorem reportedStatus_eq {w : Vault} {m : LinkAdd} {data : Value} (hdata : m.toFields w = .ok data)
    {id : Uuid} (hid : m.linkUuid = .uuid id) {field : String}
    (hfield : m.keyMetadata = .text field) (hne : field ≠ "") :
    m.reportedStatus w =
      .ok ⟨true, some id, .text field, .none, some m.expiration, none, .none⟩ := by
  obtain ⟨apiKey, hkey⟩ := Sealed.exists_text_of_bind_ok hdata
  have hsent : m.sent w "linkUUID" = .ok (.text id.text) ∧ m.sent w "key" = .ok (.text field) ∧
      m.sent w "expiration" = .ok (.text (Choice.text m.expiration)) := by
    simp only [sent, toFields, hkey, hid, hfield]
    exact ⟨rfl, rfl, rfl⟩
  rw [reportedStatus, hsent.1, hsent.2.1, hsent.2.2]
  simp only [bind, Except.bind]
  exact LinkStatus.ofFields_of_parts w id hne m.expiration

/-- A status that leads back to what was requested: the identifier, the life time and, with the
master key behind keys that all fail to decrypt, the text of the link's key. -/
structure LeadsBack (w : Vault) (m : LinkAdd) (field : String) (masterKey : Secret) (t : String)
    (s : LinkStatus) : Prop where
  uuid : s.uuidValue = m.linkUuid
  expiration : s.expirationText = some m.expiration
  keyMetadata : s.keyMetadata = .text field ∧ s.keyMetadata ≠ .none
  linkKey : ∀ (front back : List Secret) (key : Secret) (r : RandomSource),
    key.content = masterKey.content → (∀ k ∈ front, Blob.FailsOnField (.text field) k r) →
    ((s.decryptLinkKey w (front ++ key :: back)).run r).result = .ok (some t)

/-- Every new link can be read back. In a supported version and with a link key that is absent or
a text, the request is made, and it can be sent if the service key is a text. Its identifier is a
random one. The status of the link then leads back to it, whenever it is asked for: to the given
link key or, if it was absent, to the letters and digits that were drawn for it. -/
theorem new_link_leads_back {apiKey : Value} {content : Bytes} {v : Vault}
    (hapi : apiKey.sealable v = .ok content) (uuid metadata parent : Value) (linkType : ItemKind)
    (masterKey : Secret) {linkKey : Option Secret} (hlink : ∀ k ∈ linkKey, IsText k)
    {version : Option RequestedVersion} (hversion : ∀ requested ∈ version, Supported requested)
    (r : RandomSource) :
    ∃ m v' field id t,
      (((new apiKey uuid metadata parent linkType masterKey linkKey version).run v).run r).result =
        .ok (m, v') ∧
      ((∃ data, m.toFields v' = .ok data) ↔ ∃ text, Utf8.encode text = content) ∧
      m.keyMetadata = .text field ∧ m.linkUuid = .uuid id ∧ id.IsRandom ∧
      Utf8.encode t = keyBytes linkKey r ∧
      (linkKey = none → t.length = 32 ∧ ∀ c ∈ t.toList, c.isAlphanum = true) ∧
      ∀ w data, m.toFields w = .ok data →
        ∃ s, m.reportedStatus w = .ok s ∧ LeadsBack w m field masterKey t s := by
  have hsupported : Supported (version.getD Settings.default.metadataVersion.request) := by
    cases version with
    | none => exact ⟨_, Version.ofRequest_request _⟩
    | some requested => exact hversion requested rfl
  obtain ⟨field, t, hfield, hne, hbytes, hdrawn, hopens⟩ :=
    exists_keyField hlink hsupported masterKey r
  obtain ⟨events, r', hrun⟩ : ∃ events r', (keyField linkKey masterKey
      (version.getD Settings.default.metadataVersion.request)).run r = ⟨.ok field, events, r'⟩ :=
    ⟨_, _, by rw [← hfield]⟩
  have hnew := result_new hapi hrun uuid metadata parent linkType
  have hrandom := Uuid.isRandom_ofRandomBytes (RandomSource.length_peek r' 16)
  refine ⟨_, _, field, _, t, hnew, ?_, rfl, rfl, hrandom, hbytes, hdrawn, ?_⟩
  · -- the copy of the service key is the only part that may be no text
    rw [toFields, Sealed.text, Vault.content_add_new]
    cases hdecode : Utf8.decode? content with
    | none =>
      have hnone := Utf8.decode?_eq_none_iff.mp hdecode
      constructor
      · rintro ⟨data, h⟩
        cases h
      · intro h
        exact absurd h hnone
    | some s => exact iff_of_true ⟨_, rfl⟩ ⟨s, Utf8.encode_of_decode?_eq_some hdecode⟩
  · intro w data hdata
    refine ⟨_, reportedStatus_eq hdata rfl rfl hne, ?_⟩
    exact {
      uuid := rfl
      expiration := rfl
      keyMetadata := ⟨rfl, fun h => by cases h⟩
      linkKey := fun front back key r' hkey hfront =>
        LinkStatus.result_decryptLinkKey w rfl (hopens key hkey) hfront }

set_option maxRecDepth 8000 in
/-- The empty link key of a new link, read with the master key behind an older one that fails. -/
theorem empty_link_key_read_behind_older_key :
    (Value.text "api").sealable .empty = .ok (Utf8.encode "api") ∧ IsText (.text "") ∧
      Supported (.ofInt 1) ∧
      ∃ m v' s, emptyKeyAdd.result = .ok (m, v') ∧ m.reportedStatus v' = .ok s ∧
        s.uuidValue = m.linkUuid ∧
        ((s.decryptLinkKey v' [.text "old", .text "key"]).run (.cycle [])).result =
          .ok (some "") := by
  have hapi : (Value.text "api").sealable .empty = .ok (Utf8.encode "api") := rfl
  have htext : ∀ k ∈ some (Secret.text ""), IsText k :=
    fun k hk => Option.some.inj hk ▸ ⟨"", rfl⟩
  have hversion : ∀ requested ∈ some (RequestedVersion.ofInt 1), Supported requested :=
    fun requested h => Option.some.inj h ▸ ⟨.cbc, rfl⟩
  obtain ⟨m, v', field, id, t, hnew, hsent, hfield, hid, -, hbytes, -, hstatus⟩ :=
    new_link_leads_back hapi (.text "item") (.text "metadata") (.text "base") .file (.text "key")
      htext hversion (.cycle [])
  obtain ⟨data, hdata⟩ := hsent.mpr ⟨"api", rfl⟩
  obtain ⟨s, hs, hback⟩ := hstatus v' data hdata
  have hempty : t = "" := by
    have hdecode := Utf8.decode?_encode t
    rw [hbytes] at hdecode
    exact (Option.some.inj hdecode).symm
  have hold : Blob.FailsOnField (.text field) (.text "old") (.cycle []) := by
    obtain ⟨m', v'', field', hnew', hfield', hfails⟩ : ∃ m' v'' field',
        emptyKeyAdd.result = .ok (m', v'') ∧ m'.keyMetadata = .text field' ∧
          Blob.FailsOnField (.text field') (.text "old") (.cycle []) :=
      ⟨_, _, _, rfl, rfl, _, rfl, rfl⟩
    have hsame := hnew.symm.trans hnew'
    rw [(Prod.mk.inj (Except.ok.inj hsame)).1, hfield'] at hfield
    rw [← Value.text.inj hfield]
    exact hfails
  refine ⟨hapi, htext _ rfl, hversion _ rfl, m, v', s, hnew, hs, hback.uuid, ?_⟩
  rw [← hempty]
  exact hback.linkKey [.text "old"] [] (.text "key") (.cycle []) rfl
    (fun k hk => List.mem_singleton.mp hk ▸ hold)

end LinkAdd

end SealedMetadata
