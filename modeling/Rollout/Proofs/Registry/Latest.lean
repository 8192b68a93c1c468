import Rollout.Proofs.Registry.Reachable
import Rollout.Proofs.Text.Ascending
import Rollout.Proofs.Text.Trimmed

/-! # The latest registration of a tag

A registration is refused, and then nothing changes, or puts its kind at the place of its tag. From
this one step: the tags of a registry stay strictly ascending, and under each tag stands the kind
that was last taken under it. -/
namespace Rollout.Registry
set_option autoImplicit false

variable {G : Type}

/-! ## Placing a kind -/

theorem tags_place (k : Kind G) (ks : List (Kind G)) :
    (place k ks).map Kind.tag = Text.insert k.tag (ks.map Kind.tag) := by
  induction ks with
  | nil => rfl
  | cons x rest ih =>
    rw [place, List.map_cons, Text.insert]
    split
    · rfl
    · split
      · rename_i htag
        rw [List.map_cons, htag]
      · rw [List.map_cons, ih]

theorem find?_place (r : Registry G) (k : Kind G) (tag : String) :
    find? ⟨place k r.kinds⟩ tag = if k.tag = tag then some k else r.find? tag := by
  obtain ⟨ks⟩ := r
  unfold find?
  induction ks with
  | nil => by_cases h : k.tag = tag <;> simp [place, h]
  | cons x rest ih =>
    rw [place]
    split
    · by_cases h : k.tag = tag <;> simp [h]
    · split
      · rename_i htag
        by_cases h : k.tag = tag <;> simp [← htag, h]
      · rename_i hne
        rw [List.find?_cons, List.find?_cons, ih]
        by_cases h : k.tag = tag
        · have hx : ¬x.tag = tag := fun hx => hne (h.trans hx.symm)
          simp [h, hx]
        · simp [h]

/-! ## Registrations -/

theorem after_cons (r : Registry G) (k : Kind G) (ks : List (Kind G)) :
    r.after (k :: ks) = (r.after [k]).after ks := rfl

theorem after_append (r : Registry G) (ks ks' : List (Kind G)) :
    r.after (ks ++ ks') = (r.after ks).after ks' := List.foldl_append

/-- All that a registration can do. -/
theorem after_singleton_cases (r : Registry G) (k : Kind G) :
    (Text.trim k.tag = "" ∧ r.register k = .error .blankTag ∧ r.after [k] = r) ∨
    (Text.trim k.tag ≠ "" ∧ (∃ notes, r.register k = .ok (r.after [k], notes)) ∧
      r.after [k] = ⟨place k r.kinds⟩) := by
  rcases register_cases r k with ⟨hblank, hr⟩ | ⟨hblank, notes, hr⟩
  · have hsame : r.after [k] = r := by
      rw [after, List.foldl_cons, hr]
      rfl
    exact .inl ⟨(Text.trim_eq_empty_iff k.tag).2 hblank, hr, hsame⟩
  · have hnew : r.after [k] = ⟨place k r.kinds⟩ := by
      rw [after, List.foldl_cons, hr]
      rfl
    exact .inr ⟨(Text.allBlank_eq_false_iff k.tag).1 hblank, ⟨notes, by rw [hnew, hr]⟩, hnew⟩

theorem find?_after_singleton_of_ne (r : Registry G) {k : Kind G} {tag : String}
    (h : k.tag ≠ tag) : (r.after [k]).find? tag = r.find? tag := by
  obtain ⟨-, -, hr⟩ | ⟨-, -, hr⟩ := after_singleton_cases r k
  · rw [hr]
  · rw [hr, find?_place, if_neg h]

theorem tags_after_singleton (r : Registry G) (k : Kind G) :
    (r.after [k]).tags = if Text.trim k.tag = "" then r.tags else Text.insert k.tag r.tags := by
  obtain ⟨hblank, -, hr⟩ | ⟨hblank, -, hr⟩ := after_singleton_cases r k
  · rw [hr, if_pos hblank]
  · rw [hr, if_neg hblank, tags, tags_place, tags]

theorem ascending_after {r : Registry G} (h : r.tags.Pairwise (· < ·)) (ks : List (Kind G)) :
    (r.after ks).tags.Pairwise (· < ·) := by
  induction ks generalizing r with
  | nil => exact h
  | cons k rest ih =>
    rw [after_cons]
    refine ih ?_
    rw [tags_after_singleton]
    split
    · exact h
    · exact Text.pairwise_insert h k.tag

/-- The kinds whose registrations are not refused, each registered after those before it. -/
def taken (r : Registry G) : List (Kind G) → List (Kind G)
  | [] => []
  | k :: rest =>
    match r.register k with
    | .ok (r', _) => k :: taken r' rest
    | .error _ => taken r rest

theorem find?_after (r : Registry G) (ks : List (Kind G)) (tag : String) :
    (r.after ks).find? tag =
      ((r.taken ks).reverse.find? fun k => k.tag = tag).or (r.find? tag) := by
  induction ks generalizing r with
  | nil => rfl
  | cons k rest ih =>
    rw [after_cons, ih]
    obtain ⟨-, hrefused, hr⟩ | ⟨-, ⟨notes, htaken⟩, hr⟩ := after_singleton_cases r k
    · rw [hr, taken, hrefused]
    · have hfind : (r.after [k]).find? tag =
          (([k].find? fun k => k.tag = tag).or (r.find? tag)) := by
        rw [hr, find?_place]
        by_cases h : k.tag = tag <;> simp [h]
      rw [hfind, ← Option.or_assoc, ← List.find?_append, taken, htaken, List.reverse_cons]

/-! ## Maps from tags to kinds -/

/-- What a registry becomes by registrations is the map from each tag to the kind last taken under
it, whose own tag this is, and to the kind of the start where none was taken. -/
structure LatestWins (start : Registry G) (ks : List (Kind G)) : Prop where
  ascending : (start.after ks).tags.Pairwise (· < ·)
  declared : ∀ tag ∈ (start.after ks).tags, Text.trim tag ≠ "" ∧
    ∃ k, (start.after ks).find? tag = some k ∧ k.tag = tag
  latest : ∀ tag, (start.after ks).find? tag =
    ((start.taken ks).reverse.find? fun k => k.tag = tag).or (start.find? tag)
  refused : ∀ k fault, (start.after ks).register k = .error fault →
    fault = .blankTag ∧ Text.trim k.tag = "" ∧ start.after (ks ++ [k]) = start.after ks

theorem exists_find?_of_mem_tags {r : Registry G} {tag : String} (h : tag ∈ r.tags) :
    ∃ k, r.find? tag = some k ∧ k.tag = tag := by
  obtain ⟨k, hk, rfl⟩ := List.mem_map.1 h
  have hsome : (r.find? k.tag).isSome := by
    rw [find?, List.find?_isSome]
    exact ⟨k, hk, decide_eq_true rfl⟩
  obtain ⟨k', hk'⟩ := Option.isSome_iff_exists.1 hsome
  exact ⟨k', hk', (find?_eq_some hk').2⟩

theorem latestWins {start : Registry G} (hascending : start.tags.Pairwise (· < ·))
    (hblank : start.NoneBlank) (ks : List (Kind G)) : start.LatestWins ks := by
  constructor
  case ascending => exact ascending_after hascending ks
  case declared =>
    intro tag htag
    obtain ⟨k, hk, rfl⟩ := exists_find?_of_mem_tags htag
    have hmem := (find?_eq_some hk).1
    exact ⟨(Text.allBlank_eq_false_iff k.tag).1 (noneBlank_after hblank ks k hmem), k, hk, rfl⟩
  case latest => exact find?_after start ks
  case refused =>
    intro k fault hfault
    obtain ⟨htag, hrefused, hr⟩ | ⟨-, ⟨notes, htaken⟩, -⟩ :=
      after_singleton_cases (start.after ks) k
    · rw [hrefused] at hfault
      cases hfault
      exact ⟨rfl, htag, by rw [after_append, hr]⟩
    · rw [htaken] at hfault
      cases hfault

theorem ascending_builtin : (builtin : Registry G).tags.Pairwise (· < ·) := by
  rw [tags_builtin]
  decide

end Rollout.Registry
