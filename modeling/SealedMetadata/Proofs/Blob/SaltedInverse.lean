import SealedMetadata.Proofs.Blob.KeySearch
import SealedMetadata.Proofs.Blob.RoundTrip
import SealedMetadata.Proofs.Cipher.ChainedInverse

/-!
The first format in both directions: a blob decrypts to a text exactly if the encryption of that
text under the salt in the blob is the blob again, but for its first eight bytes. These are not
looked at, so that a blob with the marker `001` and any five bytes is read like one with the usual
marker.
-/

namespace SealedMetadata.Blob

namespace Salted

variable {key : Secret} {blob text : Bytes}

/-- The salt in a blob. -/
def saltIn (blob : Bytes) : Bytes := (blob.drop 8).take 8

/-- Why a blob that is long enough for a salt holds no text under a key. -/
def Unreadable (key : Secret) (blob : Bytes) : Prop :=
  Cbc.Unreadable (keyAndVector key (saltIn blob)).1 (keyAndVector key (saltIn blob)).2
    (blob.drop 16)

theorem length_marker : marker.length = 8 := by decide

theorem length_saltIn (h : 16 ≤ blob.length) : (saltIn blob).length = saltLength := by
  rw [saltIn, List.length_take, List.length_drop, saltLength]
  omega

theorem saltIn_append_drop (blob : Bytes) : saltIn blob ++ blob.drop 16 = blob.drop 8 := by
  have hrest : blob.drop 16 = (blob.drop 8).drop 8 := by rw [List.drop_drop]
  rw [saltIn, hrest, List.take_append_drop]

theorem decrypt_of_short (h : blob.length < 16) :
    decrypt key blob = .error (.malformed .shorterThanSalt) := by
  have hshort : blob.length < marker.length + saltLength := by
    rw [length_marker, saltLength]
    exact h
  rw [decrypt_eq, if_pos hshort]

theorem decrypt_of_long (h : 16 ≤ blob.length) :
    decrypt key blob =
      match Cbc.decrypt? (keyAndVector key (saltIn blob)).1 (keyAndVector key (saltIn blob)).2
        (blob.drop 16) with
      | some text => .ok text
      | none => .error (.decryptionFailed .chainedBlocks) := by
  have hlong : ¬ blob.length < marker.length + saltLength := by
    rw [length_marker, saltLength]
    omega
  rw [decrypt_eq, if_neg hlong, length_marker, saltLength]
  simp only [List.drop_drop]
  rfl

/-- The encryption of a text is a blob, its first eight bytes apart, exactly if its chained blocks
are those in the blob: the salt is the same anyway. -/
theorem encryptWith_eq_iff : encryptWith key (saltIn blob) text = marker ++ blob.drop 8 ↔
    Cbc.encrypt (keyAndVector key (saltIn blob)).1 (keyAndVector key (saltIn blob)).2 text =
      blob.drop 16 := by
  rw [← saltIn_append_drop, encryptWith, List.append_assoc, List.append_cancel_left_eq,
    List.append_cancel_left_eq]

theorem decrypt_eq_ok_iff : decrypt key blob = .ok text ↔
    16 ≤ blob.length ∧ encryptWith key (saltIn blob) text = marker ++ blob.drop 8 := by
  by_cases hlong : 16 ≤ blob.length
  · rw [encryptWith_eq_iff, ← Cbc.decrypt?_eq_some_iff, decrypt_of_long hlong]
    cases Cbc.decrypt? _ _ (blob.drop 16) with
    | none => simp [hlong]
    | some t => simp [hlong]
  · rw [decrypt_of_short (Nat.lt_of_not_le hlong)]
    simp [hlong]

theorem decrypt_eq_error_iff (hlong : 16 ≤ blob.length) :
    decrypt key blob = .error (.decryptionFailed .chainedBlocks) ↔ Unreadable key blob := by
  rw [decrypt_of_long hlong, Unreadable]
  cases hbody : Cbc.decrypt? (keyAndVector key (saltIn blob)).1 (keyAndVector key (saltIn blob)).2
      (blob.drop 16) with
  | none => exact ⟨fun _ => Cbc.unreadable_of_decrypt?_eq_none hbody, fun _ => rfl⟩
  | some t =>
    constructor
    · intro h
      cases h
    · intro h
      rw [h.decrypt?_eq_none] at hbody
      cases hbody

/-- A blob that is long enough is either decrypted or met with the one failure to decrypt. -/
theorem decrypt_cases (key : Secret) (hlong : 16 ≤ blob.length) :
    (∃ t, decrypt key blob = .ok t) ∨
      decrypt key blob = .error (.decryptionFailed .chainedBlocks) := by
  rw [decrypt_of_long hlong]
  cases Cbc.decrypt? _ _ (blob.drop 16) with
  | none => exact Or.inr rfl
  | some t => exact Or.inl ⟨t, rfl⟩

/-- The first eight bytes of a blob make no difference. -/
theorem decrypt_congr_drop {blob' : Bytes} (h : blob'.drop 8 = blob.drop 8) :
    decrypt key blob' = decrypt key blob := by
  have hlength := congrArg List.length h
  rw [List.length_drop, List.length_drop] at hlength
  -- the length and what follows the first eight bytes are all that is read
  by_cases hlong : 16 ≤ blob.length
  · have hlong' : 16 ≤ blob'.length := by omega
    have hbody : blob'.drop 16 = blob.drop 16 := by
      have hdrop := congrArg (List.drop 8) h
      rwa [List.drop_drop, List.drop_drop] at hdrop
    rw [decrypt_of_long hlong, decrypt_of_long hlong', saltIn, h, hbody, saltIn]
  · have hshort' : blob'.length < 16 := by omega
    rw [decrypt_of_short (Nat.lt_of_not_le hlong), decrypt_of_short hshort']

theorem result_encrypt_saltIn (key : Secret) (text : Bytes) (hlong : 16 ≤ blob.length)
    (r : RandomSource) :
    ((encrypt key (some (saltIn blob)) text).run r).result =
      .ok (encryptWith key (saltIn blob) text) := by
  rw [result_encrypt, saltOf, if_pos (length_saltIn hlong)]

end Salted

/-- After `001` come five bytes that are skipped, so that the rest is read as after the marker. -/
theorem decrypt_cbc_marker (five : Bytes) (hfive : five.length = 5) (rest : Bytes)
    (key : Secret) :
    decrypt (Version.cbc.marker ++ five ++ rest) key = decrypt (Salted.marker ++ rest) key := by
  -- the marker and the five bytes take the place of the usual marker
  have hskipped : (Version.cbc.marker ++ five).length = 8 := by
    rw [List.length_append, hfive]
    rfl
  have hlength : (Version.cbc.marker ++ five ++ rest).length = (Salted.marker ++ rest).length := by
    rw [List.length_append, hskipped, List.length_append, Salted.length_marker]
  have hdrop : (Version.cbc.marker ++ five ++ rest).drop 8 = (Salted.marker ++ rest).drop 8 := by
    rw [List.drop_left' hskipped, List.drop_left' Salted.length_marker]
  have hsniff : sniff (Version.cbc.marker ++ five ++ rest) = sniff (Salted.marker ++ rest) := by
    rw [List.append_assoc, sniff_versionMarker, sniff_marker]
  have htext : decryptAs .cbc key (Version.cbc.marker ++ five ++ rest) =
      decryptAs .cbc key (Salted.marker ++ rest) := Salted.decrypt_congr_drop hdrop
  rw [decrypt_eq, decrypt_eq, hsniff, hlength, sniff_marker, Action.ofExcept_ok_bind,
    Action.ofExcept_ok_bind, htext]

/-- Decryption in the first format is the inverse of encryption. A blob decrypts to a text exactly
if it has room for a salt and the encryption of the text under that salt is the blob again, its
first eight bytes apart. A blob without room for a salt is malformed, and every other blob without
a text fails to decrypt, for one of four reasons. Since nothing but what follows the first eight
bytes counts, a blob with the marker `001` and any five bytes is read like one with `Salted__`. -/
theorem Salted.decrypts_exactly_encryptions :
    (∀ (key : Secret) (blob text : Bytes) (r : RandomSource),
      decrypt key blob = .ok text ↔ 16 ≤ blob.length ∧
        ((encrypt key (some (saltIn blob)) text).run r).result =
          .ok (marker ++ blob.drop 8)) ∧
    (∀ (key : Secret) (blob : Bytes), blob.length < 16 →
      decrypt key blob = .error (.malformed .shorterThanSalt)) ∧
    (∀ (key : Secret) (blob : Bytes) (r : RandomSource), 16 ≤ blob.length →
      (¬ ∃ text, ((encrypt key (some (saltIn blob)) text).run r).result =
        .ok (marker ++ blob.drop 8)) →
      decrypt key blob = .error (.decryptionFailed .chainedBlocks)) ∧
    (∀ (key : Secret) (blob : Bytes) (r : RandomSource), 16 ≤ blob.length →
      ((¬ ∃ text, ((encrypt key (some (saltIn blob)) text).run r).result =
        .ok (marker ++ blob.drop 8)) ↔ Unreadable key blob)) ∧
    (∀ (key : Secret) (blob blob' : Bytes), blob'.drop 8 = blob.drop 8 →
      decrypt key blob' = decrypt key blob) ∧
    (∀ (key : Secret) (five rest : Bytes), five.length = 5 →
      Blob.decrypt (Version.cbc.marker ++ five ++ rest) key =
        Blob.decrypt (marker ++ rest) key) := by
  have hiff (key : Secret) (blob text : Bytes) (r : RandomSource) :
      decrypt key blob = .ok text ↔ 16 ≤ blob.length ∧
        ((encrypt key (some (saltIn blob)) text).run r).result = .ok (marker ++ blob.drop 8) := by
    rw [decrypt_eq_ok_iff]
    refine and_congr_right fun hlong => ?_
    rw [result_encrypt_saltIn key text hlong r, Except.ok.injEq]
  -- without a text, of the two outcomes of a long blob only the failure is left
  have hnone (key : Secret) (blob : Bytes) (r : RandomSource) (hlong : 16 ≤ blob.length) :
      (¬ ∃ text, ((encrypt key (some (saltIn blob)) text).run r).result =
        .ok (marker ++ blob.drop 8)) ↔
      decrypt key blob = .error (.decryptionFailed .chainedBlocks) := by
    constructor
    · intro h
      rcases decrypt_cases key hlong with ⟨text, htext⟩ | hfailed
      · exact absurd ⟨text, ((hiff key blob text r).mp htext).2⟩ h
      · exact hfailed
    · rintro hfailed ⟨text, htext⟩
      rw [(hiff key blob text r).mpr ⟨hlong, htext⟩] at hfailed
      cases hfailed
  refine ⟨hiff, ?_, ?_, ?_, ?_, ?_⟩
  · intro key blob hshort
    exact decrypt_of_short hshort
  · intro key blob r hlong h
    exact (hnone key blob r hlong).mp h
  · intro key blob r hlong
    exact (hnone key blob r hlong).trans (decrypt_eq_error_iff hlong)
  · intro key blob blob' h
    exact decrypt_congr_drop h
  · intro key five rest hfive
    exact decrypt_cbc_marker five hfive rest key

set_option maxRecDepth 8000 in
/-- A blob of the empty text, one that is too short, one without chained blocks, and the first of
them with other beginnings. -/
theorem Salted.empty_text_is_encrypted_again :
    (16 ≤ emptyTextBlob.length ∧
      ((encrypt (.text "key") (some (saltIn emptyTextBlob)) []).run (.cycle [])).result =
        .ok (marker ++ emptyTextBlob.drop 8)) ∧
    decrypt (.text "key") [48, 48, 49] = .error (.malformed .shorterThanSalt) ∧
    decrypt (.text "key") (List.replicate 16 0) = .error (.decryptionFailed .chainedBlocks) ∧
    decrypt (.text "key") (List.replicate 8 0 ++ emptyTextBlob.drop 8) = .ok [] ∧
    Blob.decrypt (Version.cbc.marker ++ [1, 2, 3, 4, 5] ++ emptyTextBlob.drop 8) (.text "key") =
      Blob.decrypt (marker ++ emptyTextBlob.drop 8) (.text "key") := by
  obtain ⟨hinverse, hshort, hfailed, hreasons, hskipped, hmarkers⟩ :=
    decrypts_exactly_encryptions
  have htext : decrypt (.text "key") emptyTextBlob = .ok [] := by rfl
  have hlong : 16 ≤ (List.replicate 16 0 : Bytes).length := by decide
  have hempty : Unreadable (.text "key") (List.replicate 16 0) := .empty rfl
  refine ⟨(hinverse (.text "key") emptyTextBlob [] (.cycle [])).mp htext, ?_, ?_, ?_, ?_⟩
  · exact hshort (.text "key") [48, 48, 49] (by decide)
  · have hnone := (hreasons (.text "key") (List.replicate 16 0) (.cycle []) hlong).mpr hempty
    exact hfailed (.text "key") (List.replicate 16 0) (.cycle []) hlong hnone
  · have hsame : (List.replicate 8 0 ++ emptyTextBlob.drop 8).drop 8 = emptyTextBlob.drop 8 := rfl
    exact (hskipped (.text "key") emptyTextBlob _ hsame).trans htext
  · exact hmarkers (.text "key") [1, 2, 3, 4, 5] (emptyTextBlob.drop 8) rfl

end SealedMetadata.Blob
