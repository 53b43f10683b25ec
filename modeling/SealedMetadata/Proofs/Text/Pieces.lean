import SealedMetadata.Text.Pieces

/-!
Cutting and joining are inverse to each other: what is cut can always be joined again, and pieces
can be cut apart again if there is at least one and no bar in any. Both are the standard
operations on lists.
-/

namespace SealedMetadata.Text

theorem split_eq_splitOn (bar : Char) (cs : List Char) : split bar cs = cs.splitOn bar := by
  induction cs with
  | nil => rfl
  | cons c cs ih =>
    rw [split, List.splitOn_cons_eq_if_modifyHead, ih]
    by_cases hc : c = bar
    · rw [if_pos hc, if_pos (beq_iff_eq.mpr hc)]
    · rw [if_neg hc, if_neg (fun h => hc (beq_iff_eq.mp h))]
      cases h : cs.splitOn bar with
      | nil => exact absurd h (List.splitOn_ne_nil bar cs)
      | cons piece pieces => rfl

theorem join_eq_intercalate (bar : Char) (pieces : List (List Char)) :
    join bar pieces = [bar].intercalate pieces := by
  induction pieces with
  | nil => rfl
  | cons piece pieces ih =>
    cases pieces with
    | nil => rw [join, List.intercalate_singleton]
    | cons next rest =>
      rw [join, ih, List.intercalate_cons_cons, List.append_assoc, List.singleton_append]
      exact List.cons_ne_nil next rest

theorem split_join {bar : Char} {pieces : List (List Char)} (hne : pieces ≠ [])
    (hbar : ∀ piece ∈ pieces, bar ∉ piece) : split bar (join bar pieces) = pieces := by
  rw [split_eq_splitOn, join_eq_intercalate]
  exact List.splitOn_intercalate bar hbar hne

/-- A bar behind each piece is a bar between each two, and one more in the end. -/
theorem flatMap_append_bar (bar : Char) {pieces : List (List Char)} (hne : pieces ≠ []) :
    pieces.flatMap (· ++ [bar]) = join bar pieces ++ [bar] := by
  induction pieces with
  | nil => exact absurd rfl hne
  | cons piece pieces ih =>
    cases pieces with
    | nil => rw [List.flatMap_singleton, join]
    | cons next rest =>
      have hjoin : join bar (piece :: next :: rest) = piece ++ bar :: join bar (next :: rest) := rfl
      rw [List.flatMap_cons, ih (List.cons_ne_nil next rest), hjoin, List.append_assoc,
        List.append_assoc]
      rfl

/-- There is one piece more than there are bars. -/
theorem length_split (bar : Char) (cs : List Char) :
    (split bar cs).length = cs.count bar + 1 := by
  rw [split_eq_splitOn]
  induction cs with
  | nil => rfl
  | cons c cs ih =>
    rw [List.splitOn_cons_eq_if_modifyHead, List.count_cons]
    by_cases hc : (c == bar) = true
    · rw [if_pos hc, if_pos hc, List.length_cons, ih]
    · rw [if_neg hc, if_neg hc, List.length_modifyHead, ih, Nat.add_zero]

theorem not_mem_of_mem_split {bar : Char} {cs piece : List Char} (h : piece ∈ split bar cs) :
    bar ∉ piece := by
  induction cs generalizing piece with
  | nil =>
    rw [List.mem_singleton.mp h]
    exact List.not_mem_nil
  | cons c cs ih =>
    rw [split] at h
    split at h
    next hc =>
      rcases List.mem_cons.mp h with rfl | hrest
      · exact List.not_mem_nil
      · exact ih hrest
    next hc =>
      cases hcs : split bar cs with
      | nil => exact absurd hcs (split_ne_nil bar cs)
      | cons first rest =>
        rw [hcs] at h ih
        rcases List.mem_cons.mp h with rfl | hrest
        · intro hbar
          rcases List.mem_cons.mp hbar with rfl | hfirst
          · exact hc rfl
          · exact ih List.mem_cons_self hfirst
        · exact ih (List.mem_cons_of_mem _ hrest)

/-- Nothing but the bars is lost when they are left out of joined pieces. -/
theorem filter_intercalate {bar : Char} {pieces : List (List Char)}
    (h : ∀ piece ∈ pieces, bar ∉ piece) :
    ([bar].intercalate pieces).filter (· ≠ bar) = pieces.flatten := by
  have hkept : ∀ piece : List Char, bar ∉ piece → piece.filter (· ≠ bar) = piece := by
    intro piece hbar
    rw [List.filter_eq_self]
    intro c hc
    exact decide_eq_true fun heq => hbar (heq ▸ hc)
  induction pieces with
  | nil => rfl
  | cons piece pieces ih =>
    obtain ⟨hpiece, hrest⟩ := List.forall_mem_cons.mp h
    cases pieces with
    | nil => rw [List.intercalate_singleton, hkept piece hpiece, List.flatten_singleton]
    | cons next rest =>
      rw [List.intercalate_cons_cons, List.filter_append, List.filter_append, ih hrest,
        hkept piece hpiece, List.filter_cons_of_neg (by simp), List.filter_nil, List.append_nil]
      rfl

end SealedMetadata.Text
