import SealedMetadata.Secret

/-!
Texts as a command line and a terminal hand them over. Not all of them are texts in UTF-8: what
was no UTF-8 when it was read is held in lone surrogates, and such a text cannot be encoded.
-/

namespace SealedMetadata.Cli

/-- A code point: a character, or one of the surrogates, counted from the first. -/
inductive Point
  | char (c : Char)
  | surrogate (place : Fin 2048)
  deriving DecidableEq

def Point.char? : Point → Option Char
  | char c => some c
  | surrogate _ => none

abbrev RawText := List Point

namespace RawText

def ofString (s : String) : RawText := s.toList.map Point.char

/-- The text itself, if no surrogate is in it. -/
def text? (t : RawText) : Option String := (t.mapM Point.char?).map String.ofList

/-- A raw text as a secret. Reading one with a surrogate in it fails. -/
def secret (t : RawText) : UnreadSecret :=
  match t.text? with
  | some s => .ok (.text s)
  | none => .error .unencodable

theorem mapM_char?_eq_some_iff {t : RawText} {cs : List Char} :
    t.mapM Point.char? = some cs ↔ t = cs.map Point.char := by
  induction t generalizing cs with
  | nil => cases cs <;> simp
  | cons p t ih =>
    cases p with
    | surrogate place => cases cs <;> simp [Point.char?]
    | char c =>
      have hcons : List.mapM Point.char? (.char c :: t) =
          (t.mapM Point.char?).map (c :: ·) := by
        rw [List.mapM_cons]
        cases t.mapM Point.char? <;> rfl
      rw [hcons, Option.map_eq_some_iff]
      cases cs with
      | nil => simp
      | cons d ds =>
        constructor
        · rintro ⟨es, hes, heq⟩
          cases heq
          rw [ih.mp hes, List.map_cons]
        · intro h
          obtain ⟨hfirst, hrest⟩ := List.cons.inj h
          cases hfirst
          exact ⟨ds, ih.mpr hrest, rfl⟩

theorem text?_eq_some_iff {t : RawText} {s : String} : t.text? = some s ↔ t = ofString s := by
  rw [text?, ofString, Option.map_eq_some_iff]
  constructor
  · rintro ⟨cs, hcs, rfl⟩
    rw [mapM_char?_eq_some_iff.mp hcs, String.toList_ofList]
  · intro h
    exact ⟨s.toList, mapM_char?_eq_some_iff.mpr h, String.ofList_toList⟩

@[simp] theorem text?_ofString (s : String) : (ofString s).text? = some s :=
  text?_eq_some_iff.mpr rfl

theorem secret_of_some {t : RawText} {s : String} (h : t.text? = some s) :
    t.secret = .ok (.text s) := by
  rw [secret, h]

theorem secret_of_none {t : RawText} (h : t.text? = none) : t.secret = .error .unencodable := by
  rw [secret, h]

theorem secret_ofString (s : String) : (ofString s).secret = .ok (.text s) :=
  secret_of_some (text?_ofString s)

end RawText

end SealedMetadata.Cli
