/-! Keyed entries in the order in which their keys were first put. Putting a key that is there
changes its value and leaves it in its place, so a key occurs once and carries the last value.
Objects of a document and the mods of a variant are both kept this way. -/
namespace Rollout
set_option autoImplicit false

abbrev Entries (α : Type) := List (String × α)

namespace Entries

variable {α : Type}

def keys (es : Entries α) : List String := es.map Prod.fst

/-- The value of the first entry with a key. -/
def find? : Entries α → String → Option α
  | [], _ => none
  | (k, v) :: rest, key => if k = key then some v else find? rest key

/-- Sets the value of a key: in its place if it is there, at the end otherwise. -/
def put : Entries α → String → α → Entries α
  | [], key, value => [(key, value)]
  | (k, v) :: rest, key, value =>
    if k = key then (k, value) :: rest else (k, v) :: put rest key value

/-- Puts the entries of `more` one after the other. -/
def extend (es more : Entries α) : Entries α := more.foldl (fun acc e => acc.put e.1 e.2) es

/-- No key occurs twice. -/
def Distinct (es : Entries α) : Prop := es.keys.Nodup

/-! ## Keys after a put -/

theorem keys_put (es : Entries α) (key : String) (value : α) :
    (es.put key value).keys = if key ∈ es.keys then es.keys else es.keys ++ [key] := by
  induction es with
  | nil => simp [put, keys]
  | cons e rest ih =>
    obtain ⟨k, v⟩ := e
    by_cases h : k = key
    · subst h
      simp [put, keys]
    · have hne : key ≠ k := fun he => h he.symm
      have hput : put ((k, v) :: rest) key value = (k, v) :: put rest key value := if_neg h
      have hcons : ∀ es' : Entries α, keys ((k, v) :: es') = k :: keys es' := fun _ => rfl
      rw [hput, hcons, hcons, ih]
      by_cases hm : key ∈ keys rest
      · simp [hm]
      · simp [hm, hne]

theorem Distinct.put {es : Entries α} (h : es.Distinct) (key : String) (value : α) :
    (es.put key value).Distinct := by
  unfold Distinct
  rw [keys_put]
  split
  · exact h
  · rename_i hm
    rw [List.nodup_append]
    refine ⟨h, by simp, ?_⟩
    intro a ha b hb hab
    rw [List.mem_singleton] at hb
    subst hb
    subst hab
    exact hm ha

theorem Distinct.extend {es : Entries α} (h : es.Distinct) (more : Entries α) :
    (es.extend more).Distinct := by
  induction more generalizing es with
  | nil => exact h
  | cons e rest ih => exact ih (h.put e.1 e.2)

theorem distinct_nil : Distinct ([] : Entries α) := List.nodup_nil

end Entries

end Rollout
