import SealedMetadata.Proofs.Blob.FieldSearch

/-!
Encryptions and decryptions with a key that may not be readable. The key is read late, so that one
that cannot be read does no harm to what is refused anyway.
-/

namespace SealedMetadata.Blob

variable {blob : Bytes} {v : Version}

/-- In a supported version the key is read. -/
theorem result_encryptTextUnread_of_error {requested : RequestedVersion}
    (hv : Version.ofRequest requested = .ok v) (text : Secret) (e : Failure) (r : RandomSource) :
    ((encryptTextUnread (.ok text) (.error e) requested).run r).result = .error e := by
  rw [encryptTextUnread, Action.ofExcept_ok_bind, encryptUnread, hv]
  cases v <;> rfl

/-- Any other version is refused before that. -/
theorem result_encryptTextUnread_of_refused {requested : RequestedVersion} {e : Failure}
    (he : Version.ofRequest requested = .error e) (text : Secret) (key : UnreadSecret)
    (r : RandomSource) :
    ((encryptTextUnread (.ok text) key requested).run r).result = .error e := by
  rw [encryptTextUnread, Action.ofExcept_ok_bind, encryptUnread, he]
  rfl

/-- A blob is in order as far as its key is not needed: there is room for the salt, or for the
nonce and a text in base64 behind it. -/
def ReadsKey (blob : Bytes) : Prop :=
  match sniff blob with
  | .ok .cbc => 16 ≤ blob.length
  | .ok .gcm => 15 < blob.length ∧ (Base64.decode? (blob.drop 15)).isSome
  | .error _ => False

/-- So is a field with such a blob. -/
def FieldReadsKey (field : Bytes) : Prop := ∃ blob, ofField field = .ok blob ∧ ReadsKey blob

theorem decryptAsUnread_of_readsKey (hv : sniff blob = .ok v) (h : ReadsKey blob) (e : Failure) :
    decryptAsUnread v (.error e) blob = .error e := by
  rw [ReadsKey, hv] at h
  cases v with
  | cbc =>
    have hlong : ¬ blob.length < Salted.marker.length + Salted.saltLength := Nat.not_lt.mpr h
    rw [decryptAsUnread, Salted.decryptUnread, if_neg hlong]
    rfl
  | gcm =>
    obtain ⟨hroom, hdecoded⟩ := h
    have hlong : ¬ (blob.drop 3).length ≤ Authenticated.nonceLength := by
      rw [List.length_drop, Authenticated.nonceLength]
      omega
    obtain ⟨encrypted, hencrypted⟩ := Option.isSome_iff_exists.mp hdecoded
    have hbody : Base64.decode? ((blob.drop 3).drop Authenticated.nonceLength) =
        some encrypted := by
      rw [List.drop_drop]
      exact hencrypted
    rw [decryptAsUnread, Authenticated.decryptUnread, if_neg hlong, hbody]
    rfl

/-- A blob that is not in order fails without its key, as it does with any. -/
theorem decryptAsUnread_of_not_readsKey (hv : sniff blob = .ok v) (h : ¬ ReadsKey blob)
    (key : UnreadSecret) (k : Secret) : decryptAsUnread v key blob = decryptAs v k blob := by
  rw [ReadsKey, hv] at h
  rw [decryptAs]
  cases v with
  | cbc =>
    have hshort : blob.length < Salted.marker.length + Salted.saltLength := Nat.lt_of_not_le h
    rw [decryptAsUnread, decryptAsUnread, Salted.decryptUnread, Salted.decryptUnread,
      if_pos hshort, if_pos hshort]
  | gcm =>
    rw [decryptAsUnread, decryptAsUnread, Authenticated.decryptUnread, Authenticated.decryptUnread]
    by_cases hshort : (blob.drop 3).length ≤ Authenticated.nonceLength
    · rw [if_pos hshort, if_pos hshort]
    · rw [if_neg hshort, if_neg hshort]
      have hroom : 15 < blob.length := by
        rw [List.length_drop, Authenticated.nonceLength] at hshort
        omega
      have hbody : Base64.decode? ((blob.drop 3).drop Authenticated.nonceLength) = none := by
        rw [List.drop_drop, ← Option.not_isSome_iff_eq_none]
        exact fun hdecoded => h ⟨hroom, hdecoded⟩
      rw [hbody]

theorem result_decryptUnread_of_readsKey (h : ReadsKey blob) (e : Failure) (r : RandomSource) :
    ((decryptUnread blob (.error e)).run r).result = .error e := by
  cases hv : sniff blob with
  | error e' =>
    rw [ReadsKey, hv] at h
    exact h.elim
  | ok v =>
    rw [decryptUnread, hv, Action.ofExcept_ok_bind, decryptAsUnread_of_readsKey hv h]
    rfl

theorem decryptUnread_of_not_readsKey (h : ¬ ReadsKey blob) (key : UnreadSecret) (k : Secret) :
    decryptUnread blob key = decrypt blob k := by
  rw [decryptUnread, decrypt_eq]
  cases hv : sniff blob with
  | error e => rfl
  | ok v =>
    rw [Action.ofExcept_ok_bind, Action.ofExcept_ok_bind,
      decryptAsUnread_of_not_readsKey hv h key k]

/-- A field whose key is read fails as the reading of the key does. -/
theorem result_decryptTextUnread_of_readsKey (field : Secret) (h : FieldReadsKey field.content)
    (e : Failure) (r : RandomSource) :
    ((decryptTextUnread (.ok field) (.error e)).run r).result = .error e := by
  obtain ⟨blob, hblob, hreads⟩ := h
  rw [decryptTextUnread, Action.ofExcept_ok_bind, hblob, Action.ofExcept_ok_bind,
    Action.result_bind, result_decryptUnread_of_readsKey hreads]

/-- A field whose key is not read fails as with any key. -/
theorem decryptTextUnread_of_not_readsKey (field : Secret) (h : ¬ FieldReadsKey field.content)
    (key : UnreadSecret) (k : Secret) :
    decryptTextUnread (.ok field) key = decryptText field k := by
  rw [decryptTextUnread, Action.ofExcept_ok_bind, decryptText_eq]
  cases hblob : ofField field.content with
  | error e => rfl
  | ok blob =>
    have hnot : ¬ ReadsKey blob := fun hreads => h ⟨blob, hblob, hreads⟩
    rw [Action.ofExcept_ok_bind, Action.ofExcept_ok_bind, decryptUnread_of_not_readsKey hnot key k]

end SealedMetadata.Blob
