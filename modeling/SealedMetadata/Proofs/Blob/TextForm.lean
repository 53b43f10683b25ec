import SealedMetadata.Proofs.Blob.RoundTrip
import SealedMetadata.Proofs.Session.Vaulted
import SealedMetadata.Proofs.Text.Ascii
import SealedMetadata.Session.BlobOperations

/-!
Blobs as text. The text form of a blob of the first format is recognised by its first eight
characters, at every length of the blob, and no other blob begins like that. So a field holds
either form of a blob and is read in one way.
-/

namespace SealedMetadata.Blob

/-- What the check for UTF-8 makes of decrypted bytes: the text of which they are the bytes, and
a malformed content exactly where there is no such text. -/
structure IsTextOf (b : Bytes) (outcome : Except Failure String) : Prop where
  ok_iff : ∀ t, outcome = .ok t ↔ Utf8.encode t = b
  error_iff : ∀ e, outcome = .error e ↔ e = .malformed .contentNotUtf8 ∧ ¬ ∃ t, Utf8.encode t = b

theorem isTextOf_plainText (b : Bytes) : IsTextOf b (plainText b) := by
  unfold plainText
  cases hb : Utf8.decode? b with
  | none =>
    have hnone := Utf8.decode?_eq_none_iff.mp hb
    constructor
    · intro t
      exact ⟨fun h => (by cases h), fun h => absurd ⟨t, h⟩ hnone⟩
    · intro e
      exact ⟨fun h => ⟨(Except.error.inj h).symm, hnone⟩, fun h => by rw [h.1]⟩
  | some s =>
    have hs := Utf8.encode_of_decode?_eq_some hb
    constructor
    · intro t
      constructor
      · intro h
        rw [← Except.ok.inj h, hs]
      · intro h
        rw [← h, Utf8.decode?_encode] at hb
        rw [Option.some.inj hb]
    · intro e
      exact ⟨fun h => (by cases h), fun h => absurd ⟨s, hs⟩ h.2⟩

/-- An encoded blob of the first format begins like all of them: the first six bytes of the marker
are whole groups, and the rest of the blob does not reach into these. -/
theorem encode_marker (rest : Bytes) :
    Base64.encode (Salted.marker ++ rest) =
      encodedMarker ++ Base64.encode (Salted.marker.drop 6 ++ rest) := by
  have hgroups : Salted.marker = Salted.marker.take 6 ++ Salted.marker.drop 6 := rfl
  have hhead : Base64.encode (Salted.marker.take 6) = encodedMarker := by decide
  calc Base64.encode (Salted.marker ++ rest)
      = Base64.encode (Salted.marker.take 6 ++ (Salted.marker.drop 6 ++ rest)) := by
        rw [← List.append_assoc, ← hgroups]
    _ = encodedMarker ++ Base64.encode (Salted.marker.drop 6 ++ rest) := by
        rw [Base64.encode_append 2 (by decide), hhead]

theorem ofField_encode {blob : Bytes} (h : Salted.marker <+: blob) :
    ofField (Base64.encode blob) = .ok blob := by
  obtain ⟨rest, rfl⟩ := h
  have hhead : (Base64.encode (Salted.marker ++ rest)).take 8 = encodedMarker := by
    rw [encode_marker]
    exact List.take_left' (by decide)
  rw [ofField, if_pos hhead, Base64.decode?_encode]

theorem ofField_of_not_encoded {field : Bytes} (h : ¬ encodedMarker <+: field) :
    ofField field = .ok field := by
  rw [List.prefix_iff_eq_take, show encodedMarker.length = 8 from rfl] at h
  rw [ofField, if_neg (Ne.symm h)]

theorem result_decryptText (field key : Secret) (r : RandomSource) :
    ((decryptText field key).run r).result = match ofField field.content with
      | .error e => .error e
      | .ok blob => match reading blob key with
        | .error e => .error e
        | .ok b => plainText b := by
  rw [decryptText_eq]
  cases ofField field.content with
  | error e => rfl
  | ok blob =>
    rw [Action.ofExcept_ok_bind, Action.result_bind, result_decrypt]
    dsimp only
    cases reading blob key <;> rfl

/-- A blob of the second format is ASCII: its marker, its nonce and the base64 after them. -/
theorem gcm_blobOf_lt (key : Secret) (salt : Option Bytes) (r : RandomSource) (text : Bytes) :
    ∀ b ∈ blobOf .gcm key salt r text, b < 128 := by
  intro b hb
  rw [blobOf, Authenticated.encryptWith, List.mem_append, List.mem_append] at hb
  rcases hb with hmarker | hnonce | hbody
  · have hdigits : Version.gcm.marker.all (· < 128) = true := by
      decide
    exact of_decide_eq_true (List.all_eq_true.mp hdigits b hmarker)
  · rw [Authenticated.nonceOf] at hnonce
    obtain ⟨c, -, rfl⟩ := List.mem_map.mp hnonce
    exact Alphanumeric.pick_lt c
  · exact Base64.encode_lt _ b hbody

/-- A blob that an encryption gives is never taken for an encoded one. -/
theorem ofField_blobOf (v : Version) (key : Secret) (salt : Option Bytes) (r : RandomSource)
    (text : Bytes) : ofField (blobOf v key salt r text) = .ok (blobOf v key salt r text) := by
  apply ofField_of_not_encoded
  rintro ⟨rest, hrest⟩
  have hsniff := sniff_blobOf v key salt r text
  rw [← hrest, sniff_encodedMarker] at hsniff
  cases hsniff

theorem marker_prefix_blobOf (key : Secret) (salt : Option Bytes) (r : RandomSource)
    (text : Bytes) : Salted.marker <+: blobOf .cbc key salt r text := by
  rw [blobOf, Salted.encryptWith, List.append_assoc]
  exact List.prefix_append _ _

/-- The bytes of the text form of a blob. -/
def textBytes (v : Version) (blob : Bytes) : Bytes :=
  match v with
  | .cbc => Base64.encode blob
  | .gcm => blob

theorem ofField_textBytes (v : Version) (key : Secret) (salt : Option Bytes) (r : RandomSource)
    (text : Bytes) :
    ofField (textBytes v (blobOf v key salt r text)) = .ok (blobOf v key salt r text) := by
  cases v with
  | cbc => exact ofField_encode (marker_prefix_blobOf key salt r text)
  | gcm => exact ofField_blobOf .gcm key salt r text

/-- The text form of a blob that an encryption gives: its bytes, and the characters of these. -/
theorem exists_textForm_of_textBytes (v : Version) (key : Secret) (salt : Option Bytes)
    (r : RandomSource) (text : Bytes) :
    ∃ field, textForm v (blobOf v key salt r text) = .ok field ∧
      Utf8.encode field = textBytes v (blobOf v key salt r text) ∧
      field.toList = (textBytes v (blobOf v key salt r text)).map fun b => Char.ofNat b.toNat := by
  have hascii : ∀ b ∈ textBytes v (blobOf v key salt r text), b < 128 := by
    cases v with
    | cbc => exact Base64.encode_lt (blobOf .cbc key salt r text)
    | gcm => exact gcm_blobOf_lt key salt r text
  have hform : textForm v (blobOf v key salt r text) =
      asciiText (textBytes v (blobOf v key salt r text)) := by
    cases v <;> rfl
  obtain ⟨field, hfield, hbytes⟩ := Utf8.exists_decodeAscii? hascii
  refine ⟨field, ?_, hbytes, Utf8.toList_of_decodeAscii? hfield⟩
  rw [hform, asciiText, hfield]

/-- A blob that an encryption gives has a text form, which as a field holds that blob. -/
theorem exists_textForm (v : Version) (key : Secret) (salt : Option Bytes) (r : RandomSource)
    (text : Bytes) :
    ∃ field, textForm v (blobOf v key salt r text) = .ok field ∧
      ofField (Utf8.encode field) = .ok (blobOf v key salt r text) := by
  obtain ⟨field, hfield, hbytes, -⟩ := exists_textForm_of_textBytes v key salt r text
  refine ⟨field, hfield, ?_⟩
  rw [hbytes, ofField_textBytes]

theorem result_encryptText {requested : RequestedVersion} {v : Version}
    (hv : Version.ofRequest requested = .ok v) (text key : Secret) (r : RandomSource) :
    ((encryptText text key requested).run r).result =
      textForm v (blobOf v key none r text.content) := by
  rw [encryptText_eq, Action.result_bind, result_encrypt hv, hv]
  rfl

theorem plainText_encode (text : String) : plainText (Utf8.encode text) = .ok text := by
  rw [plainText, Utf8.decode?_encode]

/-- A field that holds a blob of some bytes is read as these under any key of the same bytes. -/
theorem result_decryptText_of_blobOf (field : Secret) {v : Version} {key key' : Secret}
    {salt : Option Bytes} {r : RandomSource} {text : Bytes}
    (hblob : ofField field.content = .ok (blobOf v key salt r text))
    (hkey : key'.content = key.content) (r' : RandomSource) :
    ((decryptText field key').run r').result = plainText text := by
  rw [result_decryptText, hblob]
  dsimp only
  rw [reading_congr _ hkey, reading_blobOf]

/-- A text has a field in each supported version, which is never empty, and from which any key of
the same bytes reads the text back. -/
theorem exists_field_of_text {requested : RequestedVersion} {v : Version}
    (hv : Version.ofRequest requested = .ok v) (text : String) (key : Secret) (r : RandomSource) :
    ∃ field, ((encryptText (.text text) key requested).run r).result = .ok field ∧ field ≠ "" ∧
      ∀ (key' : Secret) (r' : RandomSource), key'.content = key.content →
        ((decryptText (.text field) key').run r').result = .ok text := by
  obtain ⟨field, hfield, hblob⟩ := exists_textForm v key none r (Utf8.encode text)
  refine ⟨field, ?_, ?_, ?_⟩
  · rw [result_encryptText hv, Secret.content, hfield]
  · rintro rfl
    have hnil : blobOf v key none r (Utf8.encode text) = [] := (Except.ok.inj hblob).symm
    have hsniff := sniff_blobOf v key none r (Utf8.encode text)
    rw [hnil] at hsniff
    cases hsniff
  · intro key' r' hkey
    rw [result_decryptText_of_blobOf (.text field) hblob hkey, plainText_encode]

/-- Every text in UTF-8 is read back from its field. The encryption succeeds for other bytes too,
and these are told apart by decryption. -/
theorem field_reads_back {requested : RequestedVersion} {v : Version}
    (hv : Version.ofRequest requested = .ok v) {key key' : Secret}
    (hkey : key'.content = key.content) (text : Secret) (r r' : RandomSource) :
    ∃ field, ((encryptText text key requested).run r).result = .ok field ∧
      IsTextOf text.content ((decryptText (.text field) key').run r').result := by
  obtain ⟨field, hfield, hblob⟩ := exists_textForm v key none r text.content
  refine ⟨field, ?_, ?_⟩
  · rw [result_encryptText hv, hfield]
  · rw [result_decryptText_of_blobOf (.text field) hblob hkey]
    exact isTextOf_plainText text.content

/-- A byte that is not UTF-8 is encrypted in the second format, and is no text after decryption. -/
theorem lone_byte_has_no_text :
    Version.ofRequest (.ofInt 2) = .ok .gcm ∧
      (Secret.sealedBytes [107, 101, 121]).content = (Secret.text "key").content ∧
      ∃ field, ((encryptText (.bytes [255]) (.text "key") (.ofInt 2)).run (.cycle [7])).result =
          .ok field ∧
        IsTextOf [255] ((decryptText (.text field) (.sealedBytes [107, 101, 121])).run
          (.cycle [])).result := by
  have hkey : (Secret.sealedBytes [107, 101, 121]).content = (Secret.text "key").content := by
    decide
  exact ⟨rfl, hkey, field_reads_back rfl hkey (.bytes [255]) _ _⟩

theorem result_decryptText_raw {field : Secret} (hplain : ¬ encodedMarker <+: field.content)
    (key : Secret) (r : RandomSource) :
    (∀ e, ((decrypt field.content key).run r).result = .error e →
      ((decryptText field key).run r).result = .error e) ∧
    (∀ b, ((decrypt field.content key).run r).result = .ok b →
      IsTextOf b ((decryptText field key).run r).result) := by
  rw [result_decryptText, ofField_of_not_encoded hplain, result_decrypt]
  dsimp only
  constructor
  · intro e h
    rw [h]
  · intro b h
    rw [h]
    exact isTextOf_plainText b

/-- An encoded blob with the marker is read like that blob itself, as a field. -/
theorem decryptText_encode {field blob : Secret} (hmarker : Salted.marker <+: blob.content)
    (hfield : field.content = Base64.encode blob.content) (key : Secret) :
    decryptText field key = decryptText blob key := by
  have hplain := not_encodedMarker_of_marker hmarker
  rw [decryptText_eq, decryptText_eq, hfield, ofField_encode hmarker, ofField_of_not_encoded hplain]

/-- An encoded blob with the marker is no blob, whatever the key. -/
theorem result_decrypt_encode {blob : Bytes} (hmarker : Salted.marker <+: blob) (key : Secret)
    (r : RandomSource) :
    ((decrypt (Base64.encode blob) key).run r).result = .error (.malformed .encodedTwice) := by
  obtain ⟨rest, rfl⟩ := hmarker
  rw [result_decrypt, encode_marker, reading, sniff_encodedMarker]

theorem exists_revealed_of_decryptText {names : Session.Names} {field key : Session.Arg}
    {v v' : Vault} {r : RandomSource} {reply : Session.Reply}
    (h : ((((Session.BlobOperation.decryptText field key).run names).run v).run r).result =
      .ok (reply, v')) :
    ∃ s t, reply = .ofValue (.sealed s) ∧ s.kind = .text ∧ v'.content s = Utf8.encode t ∧
      Session.SecretQuery.answer v' (.sealed s) .reveal = .ok (.text t) := by
  -- the field, the key and the text, each of which was had; the last step keeps the text
  obtain ⟨f, v₁, r₁, -, h⟩ := Vaulted.exists_of_bind_ok h
  obtain ⟨k, v₂, r₂, -, h⟩ := Vaulted.exists_of_bind_ok h
  obtain ⟨t, v₃, r₃, -, h⟩ := Vaulted.exists_of_bind_ok h
  obtain ⟨s, hreply, hkind, hcontent, hreveal⟩ := Session.reveal_of_keepText h
  exact ⟨s, t, hreply, hkind, hcontent, hreveal⟩

/-- The two forms of a field agree on all blobs, not only on those that an encryption gives. A
field without the encoded beginning is decrypted as a blob and checked. The text form of a blob
with the marker is read like that blob itself, with all its failures, but is no blob. And what a
session keeps of a decrypted field can always be revealed. -/
theorem forms_of_field_agree :
    (∀ (field key : Secret) (r : RandomSource), ¬ encodedMarker <+: field.content →
      (∀ e, ((decrypt field.content key).run r).result = .error e →
        ((decryptText field key).run r).result = .error e) ∧
      (∀ b, ((decrypt field.content key).run r).result = .ok b →
        IsTextOf b ((decryptText field key).run r).result)) ∧
    (∀ (field blob key : Secret) (r : RandomSource), Salted.marker <+: blob.content →
      field.content = Base64.encode blob.content →
      (decryptText field key).run r = (decryptText blob key).run r ∧
      ((decrypt field.content key).run r).result = .error (.malformed .encodedTwice)) ∧
    (∀ (names : Session.Names) (field key : Session.Arg) (v v' : Vault) (r : RandomSource)
      (reply : Session.Reply),
      ((((Session.BlobOperation.decryptText field key).run names).run v).run r).result =
        .ok (reply, v') →
      ∃ s t, reply = .ofValue (.sealed s) ∧ s.kind = .text ∧ v'.content s = Utf8.encode t ∧
        Session.SecretQuery.answer v' (.sealed s) .reveal = .ok (.text t)) := by
  refine ⟨?_, ?_, ?_⟩
  · intro field key r hplain
    exact result_decryptText_raw hplain key r
  · intro field blob key r hmarker hfield
    refine ⟨?_, ?_⟩
    · rw [decryptText_encode hmarker hfield]
    · rw [hfield]
      exact result_decrypt_encode hmarker key r
  · intro names field key v v' r reply h
    exact exists_revealed_of_decryptText h

set_option maxRecDepth 8000 in
/-- One digit, which is no blob; the marker alone, encoded; and the blob of an empty text. -/
theorem short_fields_agree :
    (¬ encodedMarker <+: (Secret.bytes [48]).content ∧
      ((decryptText (.bytes [48]) (.text "key")).run (.cycle [])).result =
        .error (.malformed .shorterThanMarker)) ∧
    ((Secret.text "U2FsdGVkX18=").content = Base64.encode Salted.marker ∧
      (decryptText (.text "U2FsdGVkX18=") (.text "key")).run (.cycle []) =
        (decryptText (.bytes Salted.marker) (.text "key")).run (.cycle []) ∧
      ((decrypt (Secret.text "U2FsdGVkX18=").content (.text "key")).run (.cycle [])).result =
        .error (.malformed .encodedTwice)) ∧
    ((((Session.BlobOperation.decryptText
          (.value (.text "U2FsdGVkX18HBwcHBwcHByyItST+FDjzxvtxknjQiEA="))
          (.value (.text "key"))).run []).run .empty).run (.cycle [])).result =
        .ok (.ofValue (.sealed ⟨.text, 0⟩), ⟨#[[]]⟩) ∧
      ∃ s t, Session.Reply.ofValue (.sealed ⟨.text, 0⟩) = .ofValue (.sealed s) ∧ s.kind = .text ∧
        (Vault.mk #[[]]).content s = Utf8.encode t ∧
        Session.SecretQuery.answer ⟨#[[]]⟩ (.sealed s) .reveal = .ok (.text t) := by
  obtain ⟨hraw, hencoded, hrevealed⟩ := forms_of_field_agree
  have hplain : ¬ encodedMarker <+: (Secret.bytes [48]).content := by decide
  have hfield : (Secret.text "U2FsdGVkX18=").content = Base64.encode Salted.marker := by decide
  obtain ⟨halike, htwice⟩ := hencoded (.text "U2FsdGVkX18=") (.bytes Salted.marker) (.text "key")
    (.cycle []) (List.prefix_refl _) hfield
  have hkept : ((((Session.BlobOperation.decryptText
      (.value (.text "U2FsdGVkX18HBwcHBwcHByyItST+FDjzxvtxknjQiEA="))
      (.value (.text "key"))).run []).run .empty).run (.cycle [])).result =
        .ok (.ofValue (.sealed ⟨.text, 0⟩), ⟨#[[]]⟩) := by
    rfl
  refine ⟨⟨hplain, ?_⟩, ⟨hfield, halike, htwice⟩, hkept, ?_⟩
  · exact (hraw (.bytes [48]) (.text "key") (.cycle []) hplain).1 _ rfl
  · exact hrevealed [] _ _ .empty _ (.cycle []) _ hkept

end SealedMetadata.Blob
