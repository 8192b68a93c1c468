import Rollout.Text.Pieces

/-! # Pieces put together again

No piece of a text holds the separator, and pieces that do not hold it are the pieces of the text
that they make with separators between them. -/
namespace Rollout.Text
set_option autoImplicit false

theorem pieces_eq_splitOn (separator : Char) (cs : List Char) :
    pieces separator cs = cs.splitOn separator := by
  rw [List.splitOn_eq_splitOnP]
  induction cs with
  | nil => rfl
  | cons c rest ih => simp [pieces, List.splitOnP_cons_eq_if_modifyHead, ih]

theorem pieces_ne_nil (separator : Char) (cs : List Char) : pieces separator cs ≠ [] := by
  rw [pieces_eq_splitOn]
  exact List.splitOn_ne_nil separator cs

theorem pieces_intercalate {separator : Char} {ps : List (List Char)}
    (h : ∀ piece ∈ ps, separator ∉ piece) (hne : ps ≠ []) :
    pieces separator (List.intercalate [separator] ps) = ps := by
  rw [pieces_eq_splitOn, List.splitOn_intercalate separator h hne]

theorem not_mem_intercalate {c separator : Char} (hne : c ≠ separator) {ps : List (List Char)}
    (h : ∀ piece ∈ ps, c ∉ piece) : c ∉ List.intercalate [separator] ps := by
  induction ps with
  | nil => exact List.not_mem_nil
  | cons piece rest ih =>
    obtain ⟨hpiece, hrest⟩ := List.forall_mem_cons.1 h
    cases rest with
    | nil => simpa using hpiece
    | cons next rest =>
      rw [List.intercalate_cons_cons]
      simp [hpiece, hne, ih hrest]

theorem not_mem_of_mem_pieces {separator : Char} {cs piece : List Char}
    (h : piece ∈ pieces separator cs) : separator ∉ piece := by
  induction cs generalizing piece with
  | nil =>
    rw [List.mem_singleton.1 h]
    exact List.not_mem_nil
  | cons c rest ih =>
    unfold pieces at h
    split at h
    · rcases List.mem_cons.1 h with rfl | hrest
      · exact List.not_mem_nil
      · exact ih hrest
    · rename_i hc
      obtain ⟨first, more, hpieces⟩ := List.exists_cons_of_ne_nil (pieces_ne_nil separator rest)
      rw [hpieces] at h ih
      rcases List.mem_cons.1 h with rfl | hmore
      · simp [Ne.symm hc, ih List.mem_cons_self]
      · exact ih (List.mem_cons_of_mem first hmore)

end Rollout.Text
