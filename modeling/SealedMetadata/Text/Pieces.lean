/-!
Text cut at every occurrence of one character, and put together again.
-/

namespace SealedMetadata.Text

/-- The pieces of a list of characters between the bars, one more than there are bars. -/
def split (bar : Char) : List Char → List (List Char)
  | [] => [[]]
  | c :: cs =>
    if c = bar then [] :: split bar cs
    else
      match split bar cs with
      | [] => [[c]]
      | piece :: pieces => (c :: piece) :: pieces

/-- Pieces with a bar between each two. -/
def join (bar : Char) : List (List Char) → List Char
  | [] => []
  | [piece] => piece
  | piece :: pieces => piece ++ bar :: join bar pieces

/-- There is always a piece. -/
theorem split_ne_nil (bar : Char) (cs : List Char) : split bar cs ≠ [] := by
  cases cs with
  | nil => simp [split]
  | cons c cs =>
    rw [split]
    split
    · simp
    · split <;> simp

/-- Nothing is lost by cutting. -/
@[simp] theorem join_split (bar : Char) (cs : List Char) : join bar (split bar cs) = cs := by
  induction cs with
  | nil => rfl
  | cons c cs ih =>
    have hne := split_ne_nil bar cs
    rw [split]
    split
    next hc =>
      cases h : split bar cs with
      | nil => exact absurd h hne
      | cons piece pieces =>
        rw [h] at ih
        rw [join, ih, hc]
        · rfl
        · simp
    next =>
      cases h : split bar cs with
      | nil => exact absurd h hne
      | cons piece pieces =>
        rw [h] at ih
        cases pieces with
        | nil => simpa [join] using ih
        | cons q qs => simpa [join] using ih

end SealedMetadata.Text
