import SealedMetadata.Proofs.Blob.FailureOfBlob
import SealedMetadata.Proofs.Blob.RoundTrip

/-!
The bodies of the second format that are accepted: a nonce, and in base64 the encryption of the text
under that nonce with its tag. Any change to the nonce, the encrypted text or the tag is noticed;
only the base64 can be spelled in more than one way.
-/

namespace SealedMetadata.Blob.Authenticated

variable {key : Secret} {body text : Bytes}

theorem decrypt_of_short (h : body.length ≤ 12) :
    decrypt key body = .error (.malformed .shorterThanNonce) :=
  if_pos h

theorem decrypt_of_not_base64 (hlong : 12 < body.length)
    (h : Base64.decode? (body.drop 12) = none) :
    decrypt key body = .error (.decryptionFailed .base64) := by
  have hnonce : ¬ body.length ≤ nonceLength := Nat.not_le.mpr hlong
  rw [decrypt_eq, if_neg hnonce, nonceLength, h]

theorem decrypt_of_base64 (hlong : 12 < body.length) {decoded : Bytes}
    (h : Base64.decode? (body.drop 12) = some decoded) :
    decrypt key body = match Gcm.decrypt? (cipherKey key) (body.take 12) decoded with
      | some text => .ok text
      | none => .error (.decryptionFailed .authentication) := by
  have hnonce : ¬ body.length ≤ nonceLength := Nat.not_le.mpr hlong
  rewrite [decrypt_eq, if_neg hnonce, nonceLength, h]
  rfl

theorem length_take_nonce (hlong : 12 < body.length) : (body.take 12).length = 12 := by
  rw [List.length_take]
  omega

theorem decrypt_eq_ok_iff : decrypt key body = .ok text ↔ 12 < body.length ∧
    Base64.decode? (body.drop 12) = some (Gcm.encrypt (cipherKey key) (body.take 12) text) := by
  by_cases hlong : 12 < body.length
  · have hnonce := length_take_nonce hlong
    cases hdecoded : Base64.decode? (body.drop 12) with
    | none =>
      rw [decrypt_of_not_base64 hlong hdecoded]
      simp
    | some decoded =>
      rw [decrypt_of_base64 hlong hdecoded, Option.some.injEq, eq_comm (a := decoded),
        ← Gcm.decrypt?_eq_some_iff hnonce]
      cases Gcm.decrypt? (cipherKey key) (body.take 12) decoded with
      | none => simp
      | some t => simp [hlong]
  · rw [decrypt_of_short (Nat.le_of_not_lt hlong)]
    simp [hlong]

/-- A body with room for a nonce is either accepted or met with a failure to decrypt. -/
theorem decrypt_cases (key : Secret) (hlong : 12 < body.length) :
    (∃ t, decrypt key body = .ok t) ∨
      ∃ obstacle, decrypt key body = .error (.decryptionFailed obstacle) := by
  cases hdecoded : Base64.decode? (body.drop 12) with
  | none => exact Or.inr ⟨_, decrypt_of_not_base64 hlong hdecoded⟩
  | some decoded =>
    rw [decrypt_of_base64 hlong hdecoded]
    cases Gcm.decrypt? (cipherKey key) (body.take 12) decoded with
    | none => exact Or.inr ⟨_, rfl⟩
    | some t => exact Or.inl ⟨t, rfl⟩

theorem malformed_iff : (∃ e, decrypt key body = .error e ∧ e.kind = .malformed) ↔
    body.length ≤ 12 := by
  constructor
  · rintro ⟨e, he, hkind⟩
    apply Nat.le_of_not_lt
    intro hlong
    rcases decrypt_cases key hlong with ⟨t, ht⟩ | ⟨obstacle, hfailed⟩
    · rw [ht] at he
      cases he
    · rw [hfailed] at he
      rw [← Except.error.inj he] at hkind
      cases hkind
  · intro hshort
    exact ⟨_, decrypt_of_short hshort, rfl⟩

/-- The one tag for an encrypted text under a nonce, whatever the spelling of both. -/
theorem accepted_iff_tag {nonce masked spelling t : Bytes} (hnonce : nonce.length = 12)
    (ht : t.length = 16) (hspelling : Base64.decode? spelling = some (masked ++ t)) :
    (∃ text, decrypt key (nonce ++ spelling) = .ok text) ↔
      t = Gcm.tag (Aes.roundKeys (cipherKey key)) nonce masked := by
  -- an encrypted text has at least its tag, so there is something behind the nonce
  have hne : spelling ≠ [] := by
    rintro rfl
    have hnil : masked ++ t = [] := (Option.some.inj hspelling).symm
    rw [(List.append_eq_nil_iff.mp hnil).2] at ht
    cases ht
  have hlong : 12 < (nonce ++ spelling).length := by
    have hpos := List.length_pos_iff.mpr hne
    rw [List.length_append]
    omega
  have htake : (nonce ++ spelling).take 12 = nonce := List.take_left' hnonce
  have hdrop : (nonce ++ spelling).drop 12 = spelling := List.drop_left' hnonce
  rw [← Gcm.exists_decrypt?_append_iff ht]
  refine exists_congr fun text => ?_
  rw [decrypt_eq_ok_iff, htake, hdrop, hspelling, Gcm.decrypt?_eq_some_iff hnonce,
    Option.some.injEq, eq_comm (a := masked ++ t)]
  exact and_iff_right hlong

/-- A body of the second format is accepted as a text exactly if it has a nonce and then, in base64,
the encryption of the text under it, by the key that is derived from the key in one iteration. Only
a body without room for more than a nonce is malformed; all others that are not accepted fail to
decrypt. So an encrypted text has one tag under a nonce, and two accepted bodies with one nonce and
one text differ at most in the spelling of their base64. -/
theorem accepts_exactly_authentic_bodies :
    (∀ (key : Secret) (body text : Bytes), decrypt key body = .ok text ↔ 12 < body.length ∧
      Base64.decode? (body.drop 12) =
        some (Gcm.encrypt (PasswordKey.derive256 key key 1) (body.take 12) text)) ∧
    (∀ (key : Secret) (body : Bytes),
      (∃ e, decrypt key body = .error e ∧ e.kind = .malformed) ↔ body.length ≤ 12) ∧
    (∀ (key : Secret) (body : Bytes), 12 < body.length →
      (¬ ∃ text, Base64.decode? (body.drop 12) =
        some (Gcm.encrypt (PasswordKey.derive256 key key 1) (body.take 12) text)) →
      ∃ obstacle, decrypt key body = .error (.decryptionFailed obstacle)) ∧
    (∀ (key : Secret) (body decoded : Bytes), 12 < body.length →
      Base64.decode? (body.drop 12) = some decoded → decoded.length < 16 →
      decrypt key body = .error (.decryptionFailed .authentication)) ∧
    (∀ (key : Secret) (nonce masked : Bytes), nonce.length = 12 →
      ∃ tag, tag.length = 16 ∧ ∀ spelling t, t.length = 16 →
        Base64.decode? spelling = some (masked ++ t) →
        ((∃ text, decrypt key (nonce ++ spelling) = .ok text) ↔ t = tag)) ∧
    (∀ (key : Secret) (body body' text : Bytes), body'.take 12 = body.take 12 →
      decrypt key body = .ok text → decrypt key body' = .ok text →
      Base64.decode? (body'.drop 12) = Base64.decode? (body.drop 12)) := by
  refine ⟨?_, ?_, ?_, ?_, ?_, ?_⟩
  · intro key body text
    exact decrypt_eq_ok_iff
  · intro key body
    exact malformed_iff
  · intro key body hlong hnone
    rcases decrypt_cases key hlong with ⟨text, htext⟩ | hfailed
    · exact absurd ⟨text, (decrypt_eq_ok_iff.mp htext).2⟩ hnone
    · exact hfailed
  · intro key body decoded hlong hdecoded hshort
    rw [decrypt_of_base64 hlong hdecoded, Gcm.decrypt?_of_short hshort]
  · intro key nonce masked hnonce
    refine ⟨Gcm.tag (Aes.roundKeys (cipherKey key)) nonce masked, ?_, ?_⟩
    · exact Gcm.length_tag _ hnonce masked
    · intro spelling t ht hspelling
      exact accepted_iff_tag hnonce ht hspelling
  · intro key body body' text hnonce h h'
    -- both hold the encryption of the one text under the one nonce
    have hbody := (decrypt_eq_ok_iff.mp h).2
    have hbody' := (decrypt_eq_ok_iff.mp h').2
    rw [hbody, hbody', hnonce]

/-- The body of the text `ok` under the key `key` and a nonce of twelve letters. -/
def okBody : Bytes := "aaaaaaaaaaaarvYPFY/jX7R9JDIGNqzKzTVV".toList.map fun c => c.toNat.toUInt8

/-- A body and the same with one more padding character, which holds the same bytes; two bodies
that are too short, one of them for a tag only; and a nonce without a text under a wrong key. -/
theorem padded_body_accepted :
    (12 < okBody.length ∧ Base64.decode? (okBody.drop 12) =
      some (Gcm.encrypt (PasswordKey.derive256 (.text "key") (.text "key") 1) (okBody.take 12)
        [111, 107])) ∧
    Base64.decode? ((okBody ++ [61]).drop 12) = Base64.decode? (okBody.drop 12) ∧
    (∃ e, decrypt (.text "key") (okBody.take 12) = .error e ∧ e.kind = .malformed) ∧
    decrypt (.text "key") (okBody.take 16) = .error (.decryptionFailed .authentication) ∧
    (∃ tag, tag.length = 16 ∧ ∀ spelling t, t.length = 16 →
      Base64.decode? spelling = some ([1, 2] ++ t) →
      ((∃ text, decrypt (.text "key") (okBody.take 12 ++ spelling) = .ok text) ↔ t = tag)) ∧
    ∃ obstacle, decrypt (.text "key") (List.replicate 13 0) =
      .error (.decryptionFailed obstacle) := by
  obtain ⟨haccepted, hmalformed, hfailed, hshort, htag, hspelling⟩ :=
    accepts_exactly_authentic_bodies
  have hbody : decrypt (.text "key") okBody = .ok [111, 107] :=
    decrypt_eq_ok_iff.mpr ⟨by decide, by decide +kernel⟩
  have hpadded : decrypt (.text "key") (okBody ++ [61]) = .ok [111, 107] :=
    decrypt_eq_ok_iff.mpr ⟨by decide, by decide +kernel⟩
  -- a zero byte follows the nonce, which is no base64
  have hzeros : Base64.decode? ((List.replicate 13 0 : Bytes).drop 12) = none := by decide
  refine ⟨(haccepted _ _ _).mp hbody, ?_, ?_, ?_, ?_, ?_⟩
  · exact hspelling (.text "key") okBody (okBody ++ [61]) [111, 107] rfl hbody hpadded
  · exact (hmalformed (.text "key") (okBody.take 12)).mpr (by decide)
  · exact hshort (.text "key") (okBody.take 16) [0xae, 0xf6, 0x0f] (by decide) (by decide)
      (by decide)
  · exact htag (.text "key") (okBody.take 12) [1, 2] (by decide)
  · refine hfailed (.text "key") (List.replicate 13 0) (by decide) ?_
    rintro ⟨text, htext⟩
    rw [hzeros] at htext
    cases htext

end SealedMetadata.Blob.Authenticated
