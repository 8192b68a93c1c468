import Mathlib.Data.List.Induction
import Mathlib.Data.String.Basic
import Rollout.Text.Ascending

/-! # The order of texts

Texts are compared code point by code point, which is the order of the standard library. A text
that is inserted into a strictly ascending list leaves it strictly ascending. -/
namespace Rollout.Text
set_option autoImplicit false

theorem charsBefore_eq_true_iff (s t : List Char) : charsBefore s t = true ↔ s < t := by
  induction s generalizing t with
  | nil => cases t <;> simp [charsBefore]
  | cons a s ih =>
    cases t with
    | nil => simp [charsBefore]
    | cons b t =>
      have hlt : a.toNat < b.toNat ↔ a < b := Iff.rfl
      simp [charsBefore, ih, List.cons_lt_cons_iff, hlt, Char.toNat_inj]

theorem before_eq_true_iff (s t : String) : before s t = true ↔ s < t :=
  (charsBefore_eq_true_iff s.toList t.toList).trans String.lt_iff_toList_lt.symm

theorem pairwise_insert {set : List String} (h : set.Pairwise (· < ·)) (s : String) :
    (insert s set).Pairwise (· < ·) := by
  induction set with
  | nil => exact List.pairwise_singleton _ s
  | cons t rest ih =>
    obtain ⟨ht, hrest⟩ := List.pairwise_cons.1 h
    unfold insert
    split
    · rename_i hst
      have hst := (before_eq_true_iff s t).1 hst
      refine List.pairwise_cons.2 ⟨fun x hx => ?_, h⟩
      rcases List.mem_cons.1 hx with rfl | hx
      · exact hst
      · exact hst.trans (ht x hx)
    · rename_i hst
      split
      · exact h
      · rename_i hne
        have hts : t < s := by
          rw [before_eq_true_iff] at hst
          exact lt_of_le_of_ne (not_lt.1 hst) (Ne.symm hne)
        refine List.pairwise_cons.2 ⟨fun x hx => ?_, ih hrest⟩
        rcases (mem_insert x s rest).1 hx with rfl | hx
        · exact hts
        · exact ht x hx

theorem pairwise_setOf (xs : List String) : (setOf xs).Pairwise (· < ·) := by
  unfold setOf
  induction xs using List.reverseRecOn with
  | nil => exact .nil
  | append_singleton xs x ih =>
    rw [List.foldl_append]
    exact pairwise_insert ih x

end Rollout.Text
