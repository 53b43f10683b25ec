import SealedMetadata.Blob.Basic

/-!
The format that a blob's first bytes announce.
-/

namespace SealedMetadata.Blob

theorem sniff_marker (rest : Bytes) : sniff (Salted.marker ++ rest) = .ok .cbc := by
  have hhead : (Salted.marker ++ rest).take 8 = Salted.marker := List.take_left' (by decide)
  rw [sniff, hhead]
  exact if_pos rfl

theorem sniff_encodedMarker (rest : Bytes) :
    sniff (encodedMarker ++ rest) = .error (.malformed .encodedTwice) := by
  have hhead : (encodedMarker ++ rest).take 8 = encodedMarker := List.take_left' (by decide)
  have hne : encodedMarker ≠ Salted.marker := by decide
  rw [sniff, hhead]
  simp only [if_neg hne, if_true]

/-- No blob has both of the two long beginnings. -/
theorem not_encodedMarker_of_marker {blob : Bytes} (h : Salted.marker <+: blob) :
    ¬ encodedMarker <+: blob := by
  obtain ⟨rest, rfl⟩ := h
  intro h
  have hhead : encodedMarker = (Salted.marker ++ rest).take 8 := List.prefix_iff_eq_take.mp h
  rw [List.take_left' (by decide)] at hhead
  exact absurd hhead (by decide)

/-- A blob that begins with a digit has neither of the two long beginnings. -/
theorem take_versionMarker_ne (v : Version) (rest : Bytes) :
    (v.marker ++ rest).take 8 ≠ Salted.marker ∧ (v.marker ++ rest).take 8 ≠ encodedMarker := by
  have hfirst : ((v.marker ++ rest).take 8).head? = some 48 := rfl
  constructor
  · intro h
    rw [h] at hfirst
    exact absurd hfirst (by decide)
  · intro h
    rw [h] at hfirst
    exact absurd hfirst (by decide)

theorem sniff_versionMarker (v : Version) (rest : Bytes) : sniff (v.marker ++ rest) = .ok v := by
  obtain ⟨hsalted, hencoded⟩ := take_versionMarker_ne v rest
  have hlong : ¬(v.marker ++ rest).length < 3 := by
    rw [List.length_append, show v.marker.length = 3 from rfl]
    omega
  have hmarker : (v.marker ++ rest).take 3 = v.marker := List.take_left' rfl
  rw [sniff]
  simp only [if_neg hsalted, if_neg hencoded, if_neg hlong, hmarker]
  -- what is left is the number that the three digits spell
  cases v <;> rfl

end SealedMetadata.Blob
