/-! Finite sets of texts as strictly ascending lists, in the order of code points. -/
namespace Rollout
set_option autoImplicit false

namespace Text

def charsBefore : List Char → List Char → Bool
  | _, [] => false
  | [], _ :: _ => true
  | a :: s, b :: t => a.toNat < b.toNat || (a.toNat = b.toNat && charsBefore s t)

/-- The first text comes before the second. -/
def before (s t : String) : Bool := charsBefore s.toList t.toList

/-- Adds a text to an ascending list, at its place. -/
def insert (s : String) : List String → List String
  | [] => [s]
  | t :: rest =>
    if before s t then s :: t :: rest else if s = t then t :: rest else t :: insert s rest

def setOf (xs : List String) : List String := xs.foldl (fun set x => insert x set) []

theorem mem_insert (x s : String) (set : List String) :
    x ∈ insert s set ↔ x = s ∨ x ∈ set := by
  induction set with
  | nil => simp [insert]
  | cons t rest ih =>
    unfold insert
    split
    · simp
    · split
      · rename_i h
        subst h
        simp
      · rw [List.mem_cons, ih, List.mem_cons]
        constructor
        · rintro (h | h | h)
          · exact .inr (.inl h)
          · exact .inl h
          · exact .inr (.inr h)
        · rintro (h | h | h)
          · exact .inr (.inl h)
          · exact .inl h
          · exact .inr (.inr h)

theorem mem_setOf (x : String) (xs : List String) : x ∈ setOf xs ↔ x ∈ xs := by
  have h : ∀ set : List String,
      x ∈ xs.foldl (fun set x => insert x set) set ↔ x ∈ xs ∨ x ∈ set := by
    induction xs with
    | nil => simp
    | cons y rest ih =>
      intro set
      rw [List.foldl_cons, ih, mem_insert, List.mem_cons]
      constructor
      · rintro (h | h | h)
        · exact .inl (.inr h)
        · exact .inl (.inl h)
        · exact .inr h
      · rintro ((h | h) | h)
        · exact .inr (.inl h)
        · exact .inl h
        · exact .inr (.inr h)
  rw [setOf, h, or_iff_left List.not_mem_nil]

end Text

end Rollout
