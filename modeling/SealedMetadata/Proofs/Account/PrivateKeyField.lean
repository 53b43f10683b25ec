import SealedMetadata.Payload.Login
import SealedMetadata.Proofs.Blob.FieldSearch
import SealedMetadata.Proofs.Blob.Openings
import SealedMetadata.Proofs.Secret.SameContent

/-!
The field with the private key. A key of any bytes comes back from either form of its encrypted
base64, and no bytes from a field without any. Otherwise the failures of the field as a text are
passed on, and a text that is no base64 is told apart from all of them.
-/

namespace SealedMetadata

namespace Blob

/-- The ways in which a field can be malformed, from its base64 to the text in it. -/
def fieldMalformations : List Malformation :=
  [.fieldNotBase64, .encodedTwice, .shorterThanMarker, .shorterThanSalt, .shorterThanNonce,
    .contentNotUtf8]

theorem malformation_of_sniff {blob : Bytes} {why : Malformation}
    (h : sniff blob = .error (.malformed why)) : why ∈ fieldMalformations := by
  obtain ⟨o, ho⟩ := exists_opens blob
  rw [sniff_of_opens ho] at h
  cases o with
  | format v => cases h
  | number n => cases h
  | encoded =>
    cases h
    decide
  | short =>
    cases h
    decide
  | unmarked marker => cases h

theorem malformation_of_reading {blob : Bytes} {key : Secret} {why : Malformation}
    (h : reading blob key = .error (.malformed why)) : why ∈ fieldMalformations := by
  have hwhy : failureOf blob = .malformed why := (eq_failureOf h).symm
  rw [failureOf] at hwhy
  cases hsniff : sniff blob with
  | error e =>
    rw [hsniff] at hwhy
    dsimp only at hwhy
    rw [hwhy] at hsniff
    exact malformation_of_sniff hsniff
  | ok v =>
    rw [hsniff] at hwhy
    -- behind the beginning, only a blob that ends early is malformed
    cases v with
    | cbc =>
      simp only [failureAs, Salted.failureOf] at hwhy
      split at hwhy
      · cases hwhy
        decide
      · cases hwhy
    | gcm =>
      simp only [failureAs, Authenticated.failureOf] at hwhy
      split at hwhy
      · cases hwhy
        decide
      · split at hwhy <;> cases hwhy

theorem malformation_of_ofField {field : Bytes} {why : Malformation}
    (h : ofField field = .error (.malformed why)) : why ∈ fieldMalformations := by
  rw [ofField] at h
  split at h
  · split at h
    · cases h
    · cases h
      decide
  · cases h

/-- A field that is malformed is so at its base64, as a blob, or in the text that it holds. -/
theorem malformation_of_fieldReading {field : Bytes} {key : Secret} {why : Malformation}
    (h : fieldReading field key = .error (.malformed why)) : why ∈ fieldMalformations := by
  unfold fieldReading at h
  split at h
  next e hblob =>
    rw [Except.error.inj h] at hblob
    exact malformation_of_ofField hblob
  next blob hblob =>
    split at h
    next e hbytes =>
      rw [Except.error.inj h] at hbytes
      exact malformation_of_reading hbytes
    next b hbytes =>
      rcases plainText_cases b with ⟨text, htext⟩ | hgarbled
      · rw [htext] at h
        cases h
      · rw [hgarbled] at h
        cases h
        decide

end Blob

namespace PrivateKey

/-- A field is read into sealed bytes of this content, in a new buffer of whatever vault. -/
def ReadsAs (field : Option Secret) (key : Secret) (der : Bytes) : Prop :=
  ∀ (v : Vault) (r : RandomSource),
    ∃ s v', (((readSealed field key).run v).run r).result = .ok (s, v') ∧ s.kind = .bytes ∧
      v'.content s = der ∧ ∀ t : Sealed, t.slot < v.buffers.size → v'.content t = v.content t

/-- What the reading of a private key comes to, given what its field comes to as a text. -/
structure FollowsText (text : Except Failure String) (outcome : Except Failure Bytes) : Prop where
  of_error : ∀ e, text = .error e → outcome = .error e
  of_base64 : ∀ t b, text = .ok t → Base64.decode? (Utf8.encode t) = some b → outcome = .ok b
  not_base64_iff : outcome = .error (.malformed .privateKeyNotBase64) ↔
    ∃ t, text = .ok t ∧ Base64.decode? (Utf8.encode t) = none

theorem result_decrypt {field : Secret} (hfield : field.content ≠ []) (key : Secret)
    (r : RandomSource) : ((decrypt (some field) key).run r).result =
      ((Blob.decryptText field key).run r).result >>= fun t => ofBase64 (Utf8.encode t) := by
  rw [decrypt_some (Bool.eq_false_iff.mpr (mt Secret.isEmpty_iff.mp hfield)), Action.result_bind]
  cases ((Blob.decryptText field key).run r).result <;> rfl

theorem ofBase64_eq_error {b : Bytes} {e : Failure} (h : ofBase64 b = .error e) :
    e = .malformed .privateKeyNotBase64 ∧ Base64.decode? b = none := by
  rw [ofBase64] at h
  cases hdecoded : Base64.decode? b with
  | some b =>
    rw [hdecoded] at h
    cases h
  | none =>
    rw [hdecoded] at h
    exact ⟨(Except.error.inj h).symm, rfl⟩

theorem followsText_decrypt {field : Secret} (hfield : field.content ≠ []) (key : Secret)
    (r : RandomSource) : FollowsText ((Blob.decryptText field key).run r).result
      ((decrypt (some field) key).run r).result := by
  have hresult := result_decrypt hfield key r
  constructor
  · intro e he
    rw [hresult, he]
    rfl
  · intro t b ht hb
    rw [hresult, ht]
    change ofBase64 (Utf8.encode t) = .ok b
    rw [ofBase64, hb]
  · rw [hresult]
    constructor
    · intro h
      cases htext : ((Blob.decryptText field key).run r).result with
      | error e =>
        -- a field has malformations of its own, and this one is not among them
        rw [htext] at h
        rw [Blob.result_decryptText_eq, Except.error.inj h] at htext
        exact absurd (Blob.malformation_of_fieldReading htext) (by decide)
      | ok t =>
        rw [htext] at h
        exact ⟨t, rfl, (ofBase64_eq_error h).2⟩
    · rintro ⟨t, ht, hnone⟩
      rw [ht]
      change ofBase64 (Utf8.encode t) = _
      rw [ofBase64, hnone]

/-- Whatever the field, a failure is one of the library's own. -/
theorem isOwn_of_decrypt {field : Option Secret} {key : Secret} {r : RandomSource} {e : Failure}
    (h : ((decrypt field key).run r).result = .error e) : e.kind.isOwn = true := by
  by_cases hempty : ∀ f ∈ field, f.content = []
  · rw [decrypt_of_empty hempty] at h
    cases h
  · push Not at hempty
    obtain ⟨f, hf, hcontent⟩ := hempty
    rw [Option.mem_def.mp hf, result_decrypt hcontent] at h
    cases htext : ((Blob.decryptText f key).run r).result with
    | error e' =>
      rw [htext] at h
      rw [Blob.result_decryptText_eq] at htext
      rw [← Except.error.inj h]
      exact Blob.isOwn_of_fieldReading htext
    | ok t =>
      rw [htext] at h
      rw [(ofBase64_eq_error h).1]
      decide

theorem readsAs_of_result {field : Option Secret} {key : Secret} {der : Bytes}
    (h : ∀ r, ((decrypt field key).run r).result = .ok der) : ReadsAs field key der := by
  intro v r
  refine ⟨((v.withSpent field).add .bytes der).1, ((v.withSpent field).add .bytes der).2, ?_, rfl,
    ?_, ?_⟩
  · rw [result_readSealed, h]
    rfl
  · exact Vault.content_add_new _ .bytes der
  · intro t ht
    rw [Vault.content_add_old _ .bytes der (Nat.lt_of_lt_of_le ht
      (Vault.size_le_withSpent v field)), Vault.content_withSpent v field ht]

/-- The answer to a login gives the key of its field. -/
theorem exists_decryptPrivateKey {m : LoginResponse} {key : Secret} {field : Option Secret}
    {der : Bytes} {v : Vault} (hfield : m.privateKey.toSecret? v = .ok field)
    (h : ReadsAs field key der) (r : RandomSource) :
    ∃ s v', (((m.decryptPrivateKey key).run v).run r).result = .ok (s, v') ∧ s.kind = .bytes ∧
      v'.content s = der := by
  rw [LoginResponse.decryptPrivateKey, Vaulted.run_inspect_bind, hfield]
  obtain ⟨s, v', hread, hkind, hcontent, -⟩ := h v r
  exact ⟨s, v', hread, hkind, hcontent⟩

/-- A session replies with the key of a field. -/
theorem exists_replied {names : Session.Names} {data : Option Session.Arg} {key : Session.Arg}
    {field : Option Secret} {k : Secret} {der : Bytes} {v u w : Vault}
    (hdata : (Session.evalSecret? names data).run v = pure (field, u))
    (hkey : (key.evalSecret names).run u = pure (k, w)) (h : ReadsAs field k der)
    (r : RandomSource) :
    ∃ (s : Sealed) (v' : Vault),
      ((((Session.BlobOperation.decryptPrivateKey data key).run names).run v).run r).result =
        .ok (.ofValue (.sealed s), v') ∧ s.kind = .bytes ∧ v'.content s = der := by
  obtain ⟨s, v', hread, hkind, hcontent, -⟩ := h w r
  refine ⟨s, v', ?_, hkind, hcontent⟩
  rw [Session.BlobOperation.run, Vaulted.run_bind, hdata, pure_bind, Vaulted.run_bind, hkey,
    pure_bind, Vaulted.result_bind_of_ok _ hread]
  rfl

/-- A field that holds an encryption of the base64 of some bytes is read as these bytes. -/
theorem readsAs_of_ofField {held key key' : Secret} {v : Version} {salt : Option Bytes}
    {r : RandomSource} {der : Bytes}
    (hblob : Blob.ofField held.content =
      .ok (Blob.blobOf v key salt r (Base64.encode der)))
    (hkey : key'.content = key.content) : ReadsAs (some held) key' der := by
  -- an empty field would be read as no bytes, but no blob is empty
  have hne : held.content ≠ [] := by
    intro hnil
    have hsniff := Blob.sniff_blobOf v key salt r (Base64.encode der)
    rw [hnil] at hblob
    rw [← Except.ok.inj hblob] at hsniff
    cases hsniff
  -- the base64 of the key is ASCII, and so it is the text that the field comes to
  obtain ⟨t, -, ht⟩ := Utf8.exists_decodeAscii? (Base64.encode_lt der)
  apply readsAs_of_result
  intro r'
  have htext : ((Blob.decryptText held key').run r').result = .ok t := by
    rw [Blob.result_decryptText_of_blobOf held hblob hkey, ← ht, Blob.plainText_encode]
  have hdecoded : Base64.decode? (Utf8.encode t) = some der := by
    rw [ht, Base64.decode?_encode]
  exact (followsText_decrypt hne key' r').of_base64 t der htext hdecoded

/-- The bytes of a private key come back from the text form and from the blob that an encryption of
their base64 gives in a supported version. A field that is absent or empty is no bytes, without any
decryption. From any other field comes what it comes to as a text, once that text is read as base64:
the same failures, one more for a text that is no base64, and else the decoded bytes. Kept in a
buffer it is the same, behind the one that the text has left empty, and no failure but those of the
library is ever met. What a field is read as comes from a login's answer and from the operation of
a session, too. -/
theorem private_key_reads_back :
    (∀ (requested : RequestedVersion) (v : Version), Version.ofRequest requested = .ok v →
      ∀ (der : Bytes) (text key : Secret) (salt : Option Bytes) (r : RandomSource),
        text.content = Base64.encode der →
        ∃ field blob, ((Blob.encryptText text key requested).run r).result = .ok field ∧
          ((Blob.encrypt text.content key requested salt).run r).result = .ok blob ∧
          ∀ held key' : Secret, held.content = Utf8.encode field ∨ held.content = blob →
            key'.content = key.content → ReadsAs (some held) key' der) ∧
    (∀ (field : Option Secret) (key : Secret), (∀ f ∈ field, f.content = []) →
      decrypt field key = pure []) ∧
    (∀ (field key : Secret) (r : RandomSource), field.content ≠ [] →
      FollowsText ((Blob.decryptText field key).run r).result
        ((decrypt (some field) key).run r).result) ∧
    (∀ (field : Option Secret) (key : Secret) (v : Vault) (r : RandomSource),
      (((readSealed field key).run v).run r).result =
        ((decrypt field key).run r).result.map ((v.withSpent field).add .bytes)) ∧
    (∀ (field : Option Secret) (key : Secret) (r : RandomSource) (e : Failure),
      ((decrypt field key).run r).result = .error e → e.kind.isOwn = true) ∧
    (∀ (m : LoginResponse) (key : Secret) (field : Option Secret) (der : Bytes) (v : Vault)
      (r : RandomSource), m.privateKey.toSecret? v = .ok field → ReadsAs field key der →
      ∃ s v', (((m.decryptPrivateKey key).run v).run r).result = .ok (s, v') ∧
        s.kind = .bytes ∧ v'.content s = der) ∧
    (∀ (names : Session.Names) (data : Option Session.Arg) (key : Session.Arg)
      (field : Option Secret) (k : Secret) (der : Bytes) (v u w : Vault) (r : RandomSource),
      (Session.evalSecret? names data).run v = pure (field, u) →
      (key.evalSecret names).run u = pure (k, w) → ReadsAs field k der →
      ∃ (s : Sealed) (v' : Vault),
        ((((Session.BlobOperation.decryptPrivateKey data key).run names).run v).run r).result =
          .ok (.ofValue (.sealed s), v') ∧ s.kind = .bytes ∧ v'.content s = der) := by
  refine ⟨?_, ?_, ?_, result_readSealed, ?_, ?_, ?_⟩
  · intro requested v hv der text key salt r htext
    obtain ⟨field, hfield, hform⟩ := Blob.exists_textForm v key none r text.content
    refine ⟨field, Blob.blobOf v key salt r text.content, ?_, ?_, ?_⟩
    · rw [Blob.result_encryptText hv, hfield]
    · exact Blob.result_encrypt hv text.content key salt r
    · rintro held key' (hheld | hheld) hkey
      · rw [htext, ← hheld] at hform
        exact readsAs_of_ofField hform hkey
      · have hblob : Blob.ofField held.content =
            .ok (Blob.blobOf v key salt r (Base64.encode der)) := by
          rw [hheld, htext, Blob.ofField_blobOf]
        exact readsAs_of_ofField hblob hkey
  · intro field key h
    exact decrypt_of_empty h key
  · intro field key r hfield
    exact followsText_decrypt hfield key r
  · intro field key r e h
    exact isOwn_of_decrypt h
  · intro m key field der v r hfield h
    exact exists_decryptPrivateKey hfield h r
  · intro names data key field k der v u w r hdata hkey h
    exact exists_replied hdata hkey h r

/-- The text `a|`, as a field. -/
def barredField : Secret := .text "U2FsdGVkX18HBwcHBwcHBwSPbD8KQdtfrY5ftjFjyzA="

set_option maxRecDepth 8000 in
/-- A key of two bytes as a text form, and one of no bytes as a blob; fields without bytes; a text
with a bar, which is no base64; one digit, which is no blob; and a login's answer and a session's
operation without a field. -/
theorem barred_text_is_no_private_key :
    (Version.ofRequest (.ofInt 1) = .ok .cbc ∧
      (Secret.text "AP8=").content = Base64.encode [0, 255] ∧
      (Secret.sealedBytes [107, 101, 121]).content = (Secret.text "key").content ∧
      ∃ field, ((Blob.encryptText (.text "AP8=") (.text "key") (.ofInt 1)).run
          (.cycle [7])).result = .ok field ∧
        ReadsAs (some (.text field)) (.sealedBytes [107, 101, 121]) [0, 255]) ∧
    (Version.ofRequest (.ofInt 2) = .ok .gcm ∧ (Secret.bytes []).content = Base64.encode [] ∧
      ∃ blob, ((Blob.encrypt (Secret.bytes []).content (.text "key") (.ofInt 2) none).run
          (.cycle [7])).result = .ok blob ∧
        ReadsAs (some (.bytes blob)) (.text "key") []) ∧
    decrypt none (.text "key") = pure [] ∧ decrypt (some (.text "")) (.text "key") = pure [] ∧
    (barredField.content ≠ [] ∧
      ((decrypt (some barredField) (.text "key")).run (.cycle [])).result =
        .error (.malformed .privateKeyNotBase64)) ∧
    ((Secret.bytes [48]).content ≠ [] ∧
      ((decrypt (some (.bytes [48])) (.text "key")).run (.cycle [])).result =
        .error (.malformed .shorterThanMarker) ∧
      (Failure.malformed .shorterThanMarker).kind.isOwn = true) ∧
    (∃ s v', (((LoginResponse.decryptPrivateKey ⟨⟨.text, 0⟩, .none, .none⟩ (.text "key")).run
        .empty).run (.cycle [])).result = .ok (s, v') ∧ v'.content s = []) ∧
    ∃ (s : Sealed) (v' : Vault),
      ((((Session.BlobOperation.decryptPrivateKey none (.value (.text "key"))).run []).run
        .empty).run (.cycle [])).result = .ok (.ofValue (.sealed s), v') ∧ v'.content s = [] := by
  obtain ⟨hreads, hempty, hfollows, -, hown, hanswer, hreply⟩ := private_key_reads_back
  have htext : (Secret.text "AP8=").content = Base64.encode [0, 255] := by decide
  have hkey : (Secret.sealedBytes [107, 101, 121]).content = (Secret.text "key").content := by
    decide
  have hbarred : ((Blob.decryptText barredField (.text "key")).run (.cycle [])).result =
      .ok "a|" := by
    rfl
  have hne : barredField.content ≠ [] := by decide
  have hshort : ((decrypt (some (.bytes [48])) (.text "key")).run (.cycle [])).result =
      .error (.malformed .shorterThanMarker) :=
    (hfollows (.bytes [48]) (.text "key") (.cycle []) (by decide)).of_error _ rfl
  have hmissing := hempty none (.text "key") (fun f hf => by cases hf)
  have hnothing : ReadsAs none (.text "key") [] :=
    readsAs_of_result fun r => congrArg (fun x => (x.run r).result) hmissing
  refine ⟨⟨rfl, htext, hkey, ?_⟩, ⟨rfl, rfl, ?_⟩, hmissing, ?_, ⟨hne, ?_⟩, ⟨by decide, hshort,
    hown _ _ _ _ hshort⟩, ?_, ?_⟩
  · obtain ⟨field, _, hfield, -, hread⟩ :=
      hreads (.ofInt 1) .cbc rfl [0, 255] (.text "AP8=") (.text "key") none (.cycle [7]) htext
    exact ⟨field, hfield, hread (.text field) _ (Or.inl rfl) hkey⟩
  · obtain ⟨_, blob, -, hblob, hread⟩ :=
      hreads (.ofInt 2) .gcm rfl [] (.bytes []) (.text "key") none (.cycle [7]) rfl
    exact ⟨blob, hblob, hread (.bytes blob) _ (Or.inr rfl) rfl⟩
  · exact hempty (some (.text "")) (.text "key") (fun f hf => by cases hf; rfl)
  · exact (hfollows barredField (.text "key") (.cycle []) hne).not_base64_iff.mpr
      ⟨"a|", hbarred, by decide⟩
  · obtain ⟨s, v', hresult, -, hcontent⟩ :=
      hanswer ⟨⟨.text, 0⟩, .none, .none⟩ (.text "key") none [] .empty (.cycle []) rfl hnothing
    exact ⟨s, v', hresult, hcontent⟩
  · obtain ⟨s, v', hresult, -, hcontent⟩ :=
      hreply [] none (.value (.text "key")) none (.text "key") [] .empty .empty .empty (.cycle [])
        rfl rfl hnothing
    exact ⟨s, v', hresult, hcontent⟩

end PrivateKey

end SealedMetadata
