import SealedMetadata.Proofs.Blob.Outcome

/-!
Which failure a decryption meets is settled by the blob. Every blob has one failure, which is
computed here without a key: a key either opens the blob or meets that failure, and no key opens a
blob whose failure is not one to decrypt. So nobody learns from a failure at which step a key was
found to be wrong.
-/

namespace SealedMetadata.Blob

/-- Either the outcome is the failure `e`, or `e` is a failure to decrypt and there is none. -/
def FailsOnlyAs (e : Failure) (outcome : Except Failure Bytes) : Prop :=
  outcome = .error e ∨ e.kind = .decryptionFailed ∧ ∃ text, outcome = .ok text

/-- The failure of a blob of the first format. -/
def Salted.failureOf (blob : Bytes) : Failure :=
  if blob.length < marker.length + saltLength then .malformed .shorterThanSalt
  else .decryptionFailed .chainedBlocks

theorem Salted.decrypt_failsOnlyAs (key : Secret) (blob : Bytes) :
    FailsOnlyAs (failureOf blob) (decrypt key blob) := by
  rw [decrypt_eq, failureOf]
  split
  · exact Or.inl rfl
  · dsimp only
    cases Cbc.decrypt? _ _ _ with
    | none => exact Or.inl rfl
    | some text => exact Or.inr ⟨rfl, text, rfl⟩

/-- The failure of a body of the second format. Whether it is base64 does not depend on a key. -/
def Authenticated.failureOf (body : Bytes) : Failure :=
  if body.length ≤ nonceLength then .malformed .shorterThanNonce
  else if (Base64.decode? (body.drop nonceLength)).isNone then .decryptionFailed .base64
  else .decryptionFailed .authentication

theorem Authenticated.decrypt_failsOnlyAs (key : Secret) (body : Bytes) :
    FailsOnlyAs (failureOf body) (decrypt key body) := by
  rw [decrypt_eq, failureOf]
  split
  · exact Or.inl rfl
  · cases Base64.decode? (body.drop nonceLength) with
    | none => exact Or.inl rfl
    | some encrypted =>
      dsimp only
      cases Gcm.decrypt? _ _ _ with
      | none => exact Or.inl rfl
      | some text => exact Or.inr ⟨rfl, text, rfl⟩

/-- The failure of a blob whose version is known. -/
def failureAs (v : Version) (blob : Bytes) : Failure :=
  match v with
  | .cbc => Salted.failureOf blob
  | .gcm => Authenticated.failureOf (blob.drop 3)

/-- The failure of a blob. -/
def failureOf (blob : Bytes) : Failure :=
  match sniff blob with
  | .ok v => failureAs v blob
  | .error e => e

theorem reading_failsOnlyAs (blob : Bytes) (key : Secret) :
    FailsOnlyAs (failureOf blob) (reading blob key) := by
  rw [failureOf, reading]
  cases sniff blob with
  | error e => exact Or.inl rfl
  | ok v =>
    cases v with
    | cbc => exact Salted.decrypt_failsOnlyAs key blob
    | gcm => exact Authenticated.decrypt_failsOnlyAs key (blob.drop 3)

/-- The kinds of failure that lie in the form of a blob. -/
def formKinds : List FailureKind := [.malformed, .invalidMarker, .unsupportedVersion]

theorem kind_of_ofRequest {requested : RequestedVersion} {e : Failure}
    (h : Version.ofRequest requested = .error e) : e.kind = .unsupportedVersion := by
  unfold Version.ofRequest at h
  split at h
  · cases h
  · split at h
    · cases h
    · cases h
      rfl

theorem kind_of_sniff {blob : Bytes} {e : Failure} (h : sniff blob = .error e) :
    e.kind ∈ formKinds := by
  unfold sniff at h
  dsimp only at h
  split at h
  · cases h
  split at h
  · cases h
    decide
  split at h
  · cases h
    decide
  split at h
  · rw [kind_of_ofRequest h]
    decide
  · cases h
    exact List.mem_cons_of_mem _ List.mem_cons_self

theorem kind_failureOf (blob : Bytes) :
    (failureOf blob).kind ∈ formKinds ∨ (failureOf blob).kind = .decryptionFailed := by
  unfold failureOf
  cases hv : sniff blob with
  | error e => exact Or.inl (kind_of_sniff hv)
  | ok v =>
    cases v with
    | cbc =>
      simp only [failureAs, Salted.failureOf]
      split
      · exact Or.inl (by decide)
      · exact Or.inr rfl
    | gcm =>
      simp only [failureAs, Authenticated.failureOf]
      split
      · exact Or.inl (by decide)
      split
      · exact Or.inr rfl
      · exact Or.inr rfl

theorem eq_failureOf {blob : Bytes} {key : Secret} {e : Failure}
    (h : reading blob key = .error e) : e = failureOf blob := by
  rcases reading_failsOnlyAs blob key with hfails | ⟨-, text, htext⟩
  · rw [h] at hfails
    exact Except.error.inj hfails
  · rw [h] at htext
    cases htext

/-- A failure of one key speaks for all keys. If another key fails too, it meets the same failure,
of the same kind and wording; and where the failure lies in the form of the blob, every key meets
it. There are four kinds of failure and no others. -/
theorem failure_decided_by_blob {blob : Bytes} {k₁ : Secret} {r₁ : RandomSource} {e : Failure}
    (h : ((decrypt blob k₁).run r₁).result = .error e) (k₂ : Secret) (r₂ : RandomSource) :
    (∀ e', ((decrypt blob k₂).run r₂).result = .error e' → e' = e) ∧
      (e.kind ∈ formKinds → ((decrypt blob k₂).run r₂).result = .error e) ∧
      (e.kind ∈ formKinds ∨ e.kind = .decryptionFailed) := by
  rw [result_decrypt] at h ⊢
  have he : e = failureOf blob := eq_failureOf h
  refine ⟨?_, ?_, ?_⟩
  · intro e' h'
    rw [he, eq_failureOf h']
  · intro hform
    rcases reading_failsOnlyAs blob k₂ with hfails | ⟨hkind, -⟩
    · rw [he, hfails]
    · rw [he, hkind] at hform
      exact absurd hform (by decide)
  · rw [he]
    exact kind_failureOf blob

/-- A blob of the first format that ends inside a block. -/
theorem partial_block_fails_for_all :
    ((decrypt (Salted.marker ++ List.replicate 13 0) (.text "new")).run (.cycle [])).result =
        .error (.decryptionFailed .chainedBlocks) ∧
      (∀ e', ((decrypt (Salted.marker ++ List.replicate 13 0) (.text "old")).run
          (.cycle [])).result = .error e' → e' = .decryptionFailed .chainedBlocks) ∧
      (FailureKind.decryptionFailed ∈ formKinds →
        ((decrypt (Salted.marker ++ List.replicate 13 0) (.text "old")).run (.cycle [])).result =
          .error (.decryptionFailed .chainedBlocks)) ∧
      (FailureKind.decryptionFailed ∈ formKinds ∨
        FailureKind.decryptionFailed = .decryptionFailed) := by
  have h : ((decrypt (Salted.marker ++ List.replicate 13 0) (.text "new")).run
      (.cycle [])).result = .error (.decryptionFailed .chainedBlocks) := by
    rfl
  exact ⟨h, failure_decided_by_blob h (.text "old") (.cycle [])⟩

end SealedMetadata.Blob
