import Mathlib.Data.List.Nodup
import Rollout.Proofs.Schema.Pointer

/-! # Places in the order of a document

A walk of a document meets a value before its parts, items by position and members in the order in
which the document has them. The rank of a place is how many places the walk meets before it. Of two
places that part from each other, the one whose step comes first has the lower rank; two places that
go the same step compare as they do in the part that it leads to. -/
namespace Rollout
set_option autoImplicit false

/-! ## Positions in lists -/

theorem idxOf_map_of_injective {α β : Type} [BEq α] [LawfulBEq α] [BEq β] [LawfulBEq β] {f : α → β}
    (hf : Function.Injective f) (a : α) (xs : List α) : (xs.map f).idxOf (f a) = xs.idxOf a := by
  induction xs with
  | nil => rfl
  | cons x xs ih =>
    rw [List.map_cons]
    by_cases h : x = a
    · rw [List.idxOf_cons_eq _ h, List.idxOf_cons_eq _ (congrArg f h)]
    · rw [List.idxOf_cons_ne _ h, List.idxOf_cons_ne _ fun he => h (hf he), ih]

/-! ## Walks -/

namespace Document

mutual

/-- The places of a document, a value before its parts. -/
def walk : Document → List (List Step)
  | list ds => [] :: walkItems 0 ds
  | object ms => [] :: walkMembers ms
  | _ => [[]]

/-- The places of items that stand from a position on. -/
def walkItems : ℕ → List Document → List (List Step)
  | _, [] => []
  | i, d :: rest => d.walk.map (Step.index i :: ·) ++ walkItems (i + 1) rest

def walkMembers : List (String × Document) → List (List Step)
  | [] => []
  | (name, d) :: rest => d.walk.map (Step.member name :: ·) ++ walkMembers rest

end

/-- How many places come before a place. -/
def rank (d : Document) (place : List Step) : ℕ := d.walk.idxOf place

/-- The parts of a document, each with the step that leads to it. -/
def parts : Document → List (Step × Document)
  | list ds => ds.zipIdx.map fun p => (.index p.2, p.1)
  | object ms => ms.map fun e => (.member e.1, e.2)
  | _ => []

def steps (d : Document) : List Step := d.parts.map Prod.fst

/-- The places of a part, seen from the document that it is a part of. -/
def placesOf (part : Step × Document) : List (List Step) := part.2.walk.map (part.1 :: ·)

theorem walkItems_eq (i : ℕ) (ds : List Document) : walkItems i ds =
    (ds.zipIdx i).flatMap fun p => placesOf (.index p.2, p.1) := by
  induction ds generalizing i with
  | nil => rfl
  | cons d rest ih =>
    rw [walkItems, ih, List.zipIdx_cons, List.flatMap_cons]
    rfl

theorem walkMembers_eq (ms : List (String × Document)) : walkMembers ms =
    ms.flatMap fun e => placesOf (.member e.1, e.2) := by
  induction ms with
  | nil => rfl
  | cons e rest ih =>
    rw [walkMembers, ih, List.flatMap_cons]
    rfl

theorem walk_eq (d : Document) : d.walk = [] :: d.parts.flatMap placesOf := by
  cases d with
  | list ds => rw [walk, walkItems_eq, parts, List.flatMap_map]
  | object ms => rw [walk, walkMembers_eq, parts, List.flatMap_map]
  | _ => rfl

theorem rank_nil (d : Document) : d.rank [] = 0 := by
  rw [rank, walk_eq]
  exact List.idxOf_cons_eq _ rfl

theorem mem_placesOf {part : Step × Document} {s : Step} {place : List Step} :
    s :: place ∈ placesOf part ↔ s = part.1 ∧ place ∈ part.2.walk := by
  simp only [placesOf, List.mem_map, List.cons.injEq]
  constructor
  · rintro ⟨_, h, rfl, rfl⟩
    exact ⟨rfl, h⟩
  · rintro ⟨rfl, h⟩
    exact ⟨place, h, rfl, rfl⟩

theorem steps_object (ms : Entries Document) : (object ms).steps = ms.keys.map Step.member := by
  simp [steps, parts, Entries.keys]

/-! ## Steps to parts -/

theorem idxOf_steps_object (ms : Entries Document) (name : String) :
    (object ms).steps.idxOf (.member name) = ms.keys.idxOf name := by
  rw [steps_object, idxOf_map_of_injective fun _ _ => Step.member.inj]

theorem idxOf_steps_list {ds : List Document} {i : ℕ} (h : i < ds.length) :
    (list ds).steps.idxOf (.index i) = i := by
  have hsteps : (list ds).steps = (List.range' 0 ds.length).map Step.index := by
    rw [← List.zipIdx_map_snd 0 ds, steps, parts, List.map_map, List.map_map]
    rfl
  have hi : (List.range' 0 ds.length)[i]? = some i := by simp [h]
  obtain ⟨hlt, hget⟩ := List.getElem?_eq_some_iff.1 hi
  rw [hsteps, idxOf_map_of_injective fun _ _ => Step.index.inj]
  nth_rewrite 1 [← hget]
  exact List.Nodup.idxOf_getElem List.nodup_range' i hlt

/-- A step leads to the first of the parts that have it. -/
theorem getElem?_parts {d x : Document} {s : Step} (h : d.step? s = some x) :
    d.parts[d.steps.idxOf s]? = some (s, x) := by
  unfold step? at h
  split at h
  · rename_i ds i
    obtain ⟨hi, -⟩ := List.getElem?_eq_some_iff.1 h
    rw [idxOf_steps_list hi]
    simp [parts, h]
  · rename_i name
    cases d with
    | object ms =>
      have hfind : Entries.find? ms name = some x := h
      rw [idxOf_steps_object]
      clear h
      induction ms with
      | nil => cases hfind
      | cons e rest ih =>
        obtain ⟨k, y⟩ := e
        rw [Entries.find?] at hfind
        have hkeys : Entries.keys ((k, y) :: rest) = k :: Entries.keys rest := rfl
        rw [hkeys]
        split at hfind
        · rename_i hk
          cases hfind
          subst hk
          rw [List.idxOf_cons_eq _ rfl]
          rfl
        · rename_i hk
          rw [List.idxOf_cons_ne _ hk]
          exact ih hfind
    | _ => cases h
  · cases h

theorem eq_of_idxOf_steps_eq {d x y : Document} {s t : Step} (hx : d.step? s = some x)
    (hy : d.step? t = some y) (h : d.steps.idxOf s = d.steps.idxOf t) : s = t := by
  have hpart := getElem?_parts hx
  rw [h, getElem?_parts hy, Option.some_inj, Prod.mk.injEq] at hpart
  exact hpart.1.symm

/-- The places in the parts before a position. -/
def offset (d : Document) (i : ℕ) : ℕ := ((d.parts.take i).flatMap placesOf).length

theorem offset_mono (d : Document) {i j : ℕ} (h : i ≤ j) : d.offset i ≤ d.offset j := by
  obtain ⟨more, hmore⟩ : d.parts.take i <+: d.parts.take j := List.take_prefix_take_left h
  rw [offset, offset, ← hmore, List.flatMap_append, List.length_append]
  exact Nat.le_add_right _ _

theorem rank_cons {d x : Document} {s : Step} (h : d.step? s = some x) {place : List Step}
    (hplace : place ∈ x.walk) :
    d.rank (s :: place) = 1 + (d.offset (d.steps.idxOf s) + x.rank place) := by
  obtain ⟨hi, hget⟩ := List.getElem?_eq_some_iff.1 (getElem?_parts h)
  -- The parts before this one have other steps.
  have hbefore : s :: place ∉ (d.parts.take (d.steps.idxOf s)).flatMap placesOf := by
    rw [List.mem_flatMap]
    rintro ⟨part, hpart, hmem⟩
    obtain ⟨hs, -⟩ := mem_placesOf.1 hmem
    have htake : s ∈ d.steps.take (d.steps.idxOf s) := by
      rw [steps, ← List.map_take]
      exact List.mem_map.2 ⟨part, hpart, hs.symm⟩
    exact absurd ((List.mem_take_iff_idxOf_lt (List.mem_of_mem_take htake)).1 htake) (Nat.lt_irrefl _)
  have hsplit : d.walk = [] :: ((d.parts.take (d.steps.idxOf s)).flatMap placesOf ++
      (placesOf (s, x) ++ (d.parts.drop (d.steps.idxOf s + 1)).flatMap placesOf)) := by
    rw [walk_eq, ← List.flatMap_cons, ← List.flatMap_append, ← hget, List.getElem_cons_drop,
      List.take_append_drop]
  have hmem : s :: place ∈ placesOf (s, x) := mem_placesOf.2 ⟨rfl, hplace⟩
  have hpart : (placesOf (s, x)).idxOf (s :: place) = x.rank place :=
    idxOf_map_of_injective (List.cons_injective (a := s)) place x.walk
  rw [rank, hsplit, List.idxOf_cons_ne _ (List.cons_ne_nil _ _).symm,
    List.idxOf_append_of_notMem hbefore, List.idxOf_append_of_mem hmem, hpart,
    Nat.succ_eq_add_one, Nat.add_comm]
  rfl

/-! ## Comparing places -/

theorem rank_cons_le_iff {d x : Document} {s : Step} (h : d.step? s = some x)
    {p q : List Step} (hp : p ∈ x.walk) (hq : q ∈ x.walk) :
    d.rank (s :: p) ≤ d.rank (s :: q) ↔ x.rank p ≤ x.rank q := by
  rw [rank_cons h hp, rank_cons h hq]
  omega

theorem rank_cons_lt {d x y : Document} {s t : Step} (hx : d.step? s = some x)
    (hy : d.step? t = some y) (hlt : d.steps.idxOf s < d.steps.idxOf t) {p q : List Step}
    (hp : p ∈ x.walk) (hq : q ∈ y.walk) : d.rank (s :: p) < d.rank (t :: q) := by
  have hnext : d.offset (d.steps.idxOf s + 1) = d.offset (d.steps.idxOf s) + x.walk.length := by
    obtain ⟨hi, hget⟩ := List.getElem?_eq_some_iff.1 (getElem?_parts hx)
    rw [offset, List.take_succ_eq_append_getElem hi, hget, List.flatMap_append, List.length_append]
    simp [offset, placesOf]
  have hwithin : x.rank p < x.walk.length := List.idxOf_lt_length_of_mem hp
  have hmono : d.offset (d.steps.idxOf s + 1) ≤ d.offset (d.steps.idxOf t) := d.offset_mono hlt
  rw [rank_cons hx hp, rank_cons hy hq]
  omega

/-- A place that leads to a part is met by the walk. -/
theorem mem_walk {d x : Document} {place : List Step} (h : d.at? place = some x) :
    place ∈ d.walk := by
  induction place generalizing d with
  | nil => rw [walk_eq]; exact List.mem_cons_self
  | cons s place ih =>
    rw [at?, List.foldlM_cons] at h
    obtain ⟨y, hy, hplace⟩ := Option.bind_eq_some_iff.1 h
    rw [walk_eq]
    refine List.mem_cons_of_mem _ (List.mem_flatMap.2 ⟨(s, y), ?_, ?_⟩)
    · exact List.mem_of_getElem? (getElem?_parts hy)
    · exact mem_placesOf.2 ⟨rfl, ih hplace⟩

end Document

end Rollout
