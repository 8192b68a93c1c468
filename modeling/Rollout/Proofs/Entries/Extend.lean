import Rollout.Entries

/-! # First position, last value

What entries hold after others have been put into them: the keys keep the position at which they
were first put, and each carries the value that was put last. Extending is associative, so entries
that were collected apart can be put in one go. -/
namespace Rollout.Entries
set_option autoImplicit false

variable {α : Type}

/-! ## Looking up -/

/-- The value of the last entry with a key. -/
def last? : Entries α → String → Option α
  | [], _ => none
  | (k, v) :: rest, key => (last? rest key).or (if k = key then some v else none)

theorem keys_cons (k : String) (v : α) (rest : Entries α) :
    keys ((k, v) :: rest) = k :: keys rest := rfl

theorem last?_append (es more : Entries α) (key : String) :
    last? (es ++ more) key = (more.last? key).or (es.last? key) := by
  induction es with
  | nil => simp [last?]
  | cons e rest ih =>
    obtain ⟨k, v⟩ := e
    rw [List.cons_append, last?, ih, last?, Option.or_assoc]

theorem last?_eq_none_iff (es : Entries α) (key : String) :
    es.last? key = none ↔ key ∉ es.keys := by
  induction es with
  | nil => simp [last?, keys]
  | cons e rest ih =>
    obtain ⟨k, v⟩ := e
    rw [last?, Option.or_eq_none_iff, ih, keys_cons, List.mem_cons, not_or]
    by_cases h : k = key
    · simp [h]
    · have hne : ¬ key = k := fun he => h he.symm
      simp [h, hne]

theorem keys_flatMap {β : Type} (f : β → Entries α) (xs : List β) :
    keys (xs.flatMap f) = xs.flatMap fun x => (f x).keys := List.map_flatMap

/-- The last value with a key comes from the last part in which the key occurs. -/
theorem last?_flatMap_eq_some_iff {β : Type} (f : β → Entries α) (xs : List β) (key : String)
    (v : α) :
    last? (xs.flatMap f) key = some v ↔ ∃ before x after, xs = before ++ x :: after ∧
      (f x).last? key = some v ∧ ∀ y ∈ after, key ∉ (f y).keys := by
  have hnone : ∀ ys : List β,
      last? (ys.flatMap f) key = none ↔ ∀ y ∈ ys, key ∉ (f y).keys := by
    intro ys
    simp [last?_eq_none_iff, keys_flatMap]
  induction xs with
  | nil => simp [last?]
  | cons x rest ih =>
    rw [List.flatMap_cons, last?_append, Option.or_eq_some_iff, hnone]
    constructor
    · rintro (hlast | ⟨hafter, hx⟩)
      · obtain ⟨before, x', after, rfl, h⟩ := ih.1 hlast
        exact ⟨x :: before, x', after, rfl, h⟩
      · exact ⟨[], x, rest, rfl, hx, hafter⟩
    · rintro ⟨before, x', after, heq, hx, hafter⟩
      cases before with
      | nil =>
        obtain ⟨rfl, rfl⟩ := List.cons.inj heq
        exact .inr ⟨hafter, hx⟩
      | cons b before =>
        obtain ⟨rfl, rfl⟩ := List.cons.inj heq
        exact .inl (ih.2 ⟨before, x', after, rfl, hx, hafter⟩)

theorem exists_find?_of_mem {es : Entries α} {k : String} {v : α} (h : (k, v) ∈ es) :
    ∃ w, es.find? k = some w := by
  induction es with
  | nil => cases h
  | cons e rest ih =>
    rw [find?]
    split
    · exact ⟨e.2, rfl⟩
    · rename_i hne
      rcases List.mem_cons.1 h with rfl | hrest
      · exact absurd rfl hne
      · exact ih hrest

/-! ## One put after another -/

theorem find?_put (es : Entries α) (k key : String) (v : α) :
    (es.put k v).find? key = if k = key then some v else es.find? key := by
  induction es with
  | nil => rfl
  | cons e rest ih =>
    obtain ⟨k', v'⟩ := e
    by_cases hk : k' = k
    · subst hk
      rw [put, if_pos rfl, find?, find?]
      split <;> rfl
    · rw [put, if_neg hk, find?, find?, ih]
      by_cases h : k' = key
      · subst h
        simp [Ne.symm hk]
      · simp [h]

theorem put_put_self (es : Entries α) (k : String) (v w : α) :
    (es.put k v).put k w = es.put k w := by
  induction es with
  | nil => simp [put]
  | cons e rest ih =>
    obtain ⟨k', v'⟩ := e
    by_cases hk : k' = k
    · simp [put, hk]
    · simp [put, hk, ih]

/-- A key that is there keeps its place, so putting it and putting another one commute. -/
theorem put_comm {es : Entries α} {k k' : String} (hmem : k ∈ es.keys) (hne : k ≠ k') (v w : α) :
    (es.put k' w).put k v = (es.put k v).put k' w := by
  induction es with
  | nil => simp [keys] at hmem
  | cons e rest ih =>
    obtain ⟨k₁, v₁⟩ := e
    by_cases h : k₁ = k
    · subst h
      simp [put, hne]
    · have hrest : k ∈ keys rest := by
        rw [keys_cons, List.mem_cons] at hmem
        exact hmem.resolve_left (Ne.symm h)
      by_cases h' : k₁ = k'
      · simp [put, h', Ne.symm hne]
      · simp [put, h, h', ih hrest]

/-! ## Extending -/

theorem extend_nil (es : Entries α) : es.extend [] = es := rfl

theorem extend_cons (es : Entries α) (e : String × α) (more : Entries α) :
    es.extend (e :: more) = (es.put e.1 e.2).extend more := rfl

theorem extend_append (es a b : Entries α) : es.extend (a ++ b) = (es.extend a).extend b :=
  List.foldl_append ..

theorem put_of_not_mem {es : Entries α} {key : String} (h : key ∉ es.keys) (v : α) :
    es.put key v = es ++ [(key, v)] := by
  induction es with
  | nil => rfl
  | cons e rest ih =>
    obtain ⟨k, w⟩ := e
    rw [keys_cons, List.mem_cons, not_or] at h
    rw [put, if_neg (Ne.symm h.1), ih h.2]
    rfl

/-- Entries without repetition are put one behind the other. -/
theorem extend_of_distinct {es more : Entries α} (h : Distinct (es ++ more)) :
    es.extend more = es ++ more := by
  induction more generalizing es with
  | nil => rw [extend_nil, List.append_nil]
  | cons e rest ih =>
    obtain ⟨k, v⟩ := e
    have hassoc : es ++ (k, v) :: rest = es ++ [(k, v)] ++ rest := by simp
    have hk : k ∉ es.keys := by
      intro hmem
      have hnodup : (es.keys ++ k :: keys rest).Nodup := by
        rw [← keys_cons k v, keys, keys, ← List.map_append]
        exact h
      exact (List.nodup_append.1 hnodup).2.2 k hmem k List.mem_cons_self rfl
    rw [extend_cons, put_of_not_mem hk, hassoc]
    rw [hassoc] at h
    exact ih h

theorem find?_extend (es more : Entries α) (key : String) :
    (es.extend more).find? key = (more.last? key).or (es.find? key) := by
  induction more generalizing es with
  | nil => simp [extend_nil, last?]
  | cons e rest ih =>
    obtain ⟨k, v⟩ := e
    rw [extend_cons, ih, find?_put, last?, Option.or_assoc]
    congr 1
    split <;> rfl

theorem eraseDups_of_nodup {xs : List String} (h : xs.Nodup) : xs.eraseDups = xs := by
  induction xs with
  | nil => rfl
  | cons x rest ih =>
    obtain ⟨hx, hrest⟩ := List.nodup_cons.1 h
    have hfilter : rest.filter (fun y => !y == x) = rest := by
      rw [List.filter_eq_self]
      intro y hy
      have hne : y ≠ x := fun he => hx (he ▸ hy)
      simp [hne]
    rw [List.eraseDups_cons, hfilter, ih hrest]

theorem eraseDups_append_cons_of_mem {xs : List String} {x : String} (h : x ∈ xs)
    (ys : List String) : (xs ++ x :: ys).eraseDups = (xs ++ ys).eraseDups := by
  rw [List.eraseDups_append, List.eraseDups_append]
  congr 2
  simp [List.removeAll, h]

/-- Keys stand in the order of their first occurrence. -/
theorem keys_extend {es : Entries α} (h : es.Distinct) (more : Entries α) :
    (es.extend more).keys = (es.keys ++ more.keys).eraseDups := by
  induction more generalizing es with
  | nil =>
    have hnil : keys ([] : Entries α) = [] := rfl
    rw [extend_nil, hnil, List.append_nil, eraseDups_of_nodup h]
  | cons e rest ih =>
    obtain ⟨k, v⟩ := e
    rw [extend_cons, ih (h.put k v), keys_put, keys_cons]
    split
    · rename_i hk
      rw [eraseDups_append_cons_of_mem hk]
    · rw [List.append_assoc, List.singleton_append]

/-- A key that is there and does not occur in what follows may be put before or after it. -/
theorem put_extend {es more : Entries α} {k : String} (hmem : k ∈ es.keys) (hnot : k ∉ more.keys)
    (v : α) : (es.extend more).put k v = (es.put k v).extend more := by
  induction more generalizing es with
  | nil => rfl
  | cons e rest ih =>
    obtain ⟨k', w⟩ := e
    rw [keys_cons, List.mem_cons, not_or] at hnot
    have hmem' : k ∈ keys (es.put k' w) := by
      rw [keys_put]
      split
      · exact hmem
      · exact List.mem_append_left _ hmem
    rw [extend_cons, extend_cons, ih hmem' hnot.2, put_comm hmem hnot.1]

theorem extend_put (es : Entries α) {a : Entries α} (h : a.Distinct) (k : String) (v : α) :
    es.extend (a.put k v) = (es.extend a).put k v := by
  induction a generalizing es with
  | nil => rfl
  | cons e rest ih =>
    obtain ⟨k', w⟩ := e
    obtain ⟨hk', hrest⟩ := List.nodup_cons.1 h
    by_cases hk : k' = k
    · subst hk
      have hmem : k' ∈ keys (es.put k' w) := by
        rw [keys_put]
        split <;> simp [*]
      rw [put, if_pos rfl, extend_cons, extend_cons, put_extend hmem hk', put_put_self]
    · rw [put, if_neg hk, extend_cons, extend_cons, ih _ hrest]

/-- Extending is associative where the entries in the middle have each key once. -/
theorem extend_extend (es : Entries α) {a : Entries α} (h : a.Distinct) (b : Entries α) :
    es.extend (a.extend b) = (es.extend a).extend b := by
  -- On what is put last: each put passes the entries in the middle, which stay without repetition.
  induction b generalizing a with
  | nil => rfl
  | cons e rest ih => rw [extend_cons, ih (h.put e.1 e.2), extend_put es h, extend_cons]

end Rollout.Entries
