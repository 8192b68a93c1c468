import Mathlib.Data.List.DropRight
import Rollout.Text.Blank

/-! # Trimmed texts

Trimming takes the blanks at both ends, so nothing is left exactly of a text that is blank
throughout, and a text without blanks at its ends is left as it is. -/
namespace Rollout.Text
set_option autoImplicit false

theorem trimmed_eq_rdropWhile (cs : List Char) :
    trimmed cs = (cs.dropWhile isBlank).rdropWhile isBlank := rfl

theorem trimmed_eq_nil_iff (cs : List Char) : trimmed cs = [] ↔ ∀ c ∈ cs, isBlank c = true := by
  rw [trimmed_eq_rdropWhile, List.rdropWhile_eq_nil_iff, ← List.dropWhile_eq_nil_iff,
    List.dropWhile_idempotent, List.dropWhile_eq_nil_iff]

theorem trim_eq_empty_iff (s : String) : trim s = "" ↔ allBlank s = true := by
  rw [trim, allBlank, List.all_eq_true, ← trimmed_eq_nil_iff, String.ofList_eq_empty_iff]

theorem allBlank_eq_false_iff (s : String) : allBlank s = false ↔ trim s ≠ "" := by
  rw [ne_eq, trim_eq_empty_iff, Bool.not_eq_true]

/-! ## Ends -/

/-- There is no blank at either end. -/
structure Bare (cs : List Char) : Prop where
  first : ∀ c, cs.head? = some c → isBlank c = false
  last : ∀ c, cs.getLast? = some c → isBlank c = false

theorem Bare.trimmed_eq {cs : List Char} (h : Bare cs) : trimmed cs = cs := by
  have hfirst : cs.dropWhile isBlank = cs := by
    cases cs with
    | nil => rfl
    | cons c rest => rw [List.dropWhile_cons, if_neg (by simp [h.first c rfl])]
  rw [trimmed_eq_rdropWhile, hfirst, List.rdropWhile_eq_self_iff]
  intro hne
  simp [h.last _ (List.getLast?_eq_some_getLast hne)]

theorem bare_trimmed (cs : List Char) : Bare (trimmed cs) := by
  constructor
  case first =>
    intro c hc
    -- What is left after the end is cut off begins as it did before.
    obtain ⟨tail, htail⟩ : trimmed cs <+: cs.dropWhile isBlank := List.rdropWhile_prefix _ _
    have hhead : (cs.dropWhile isBlank).head? = some c := by
      rw [← htail, List.head?_append, hc]
      rfl
    have hnot := List.head?_dropWhile_not isBlank cs
    rw [hhead] at hnot
    exact hnot
  case last =>
    intro c hc
    have hne : trimmed cs ≠ [] := by
      intro hnil
      simp [hnil] at hc
    rw [← (List.getLast_eq_iff_getLast?_eq_some hne).2 hc]
    exact Bool.eq_false_iff.2 (List.rdropWhile_last_not isBlank _ hne)

theorem trimmed_subset (cs : List Char) : trimmed cs ⊆ cs :=
  ((List.rdropWhile_prefix _ _).sublist.trans (List.dropWhile_sublist _)).subset

instance (cs : List Char) : Decidable (Bare cs) :=
  decidable_of_iff (trimmed cs = cs) ⟨fun h => h ▸ bare_trimmed cs, Bare.trimmed_eq⟩

theorem Bare.trim_eq {s : String} (h : Bare s.toList) : trim s = s := by
  rw [trim, h.trimmed_eq, String.ofList_toList]

end Rollout.Text
