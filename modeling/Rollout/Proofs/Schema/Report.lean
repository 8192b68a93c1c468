import Mathlib.Data.List.Sigma
import Rollout.Proofs.Schema.Broken

/-! # The whole report

A configuration is reported entry by entry, each as it would be alone. Every rule that is broken is
reported once, with the pointer to the part that breaks it. -/
namespace Rollout
set_option autoImplicit false

/-! ## No violation twice -/

namespace Check

variable {d : Document} {c : Check} {cs : List Check}

theorem form_eq (allowed : List Form) (d : Document) :
    form allowed d = [] ∨ form allowed d = report (.form d allowed) := by
  unfold form
  split
  · exact .inl rfl
  · exact .inr rfl

theorem required_eq (name : String) (d : Document) :
    required name d = [] ∨ required name d = report (.missing name) := by
  unfold required
  split
  · split
    · exact .inl rfl
    · exact .inr rfl
  · exact .inl rfl

theorem someItem_eq (d : Document) : someItem d = [] ∨ someItem d = report .noItem := by
  unfold someItem
  split
  · exact .inr rfl
  · exact .inl rfl

theorem someMember_eq (d : Document) : someMember d = [] ∨ someMember d = report .noMember := by
  unfold someMember
  split
  · exact .inr rfl
  · exact .inl rfl

theorem nodup_someCharacter (d : Document) : (someCharacter d).Nodup := by
  cases d with
  | text s => by_cases h : s = "" <;> simp [someCharacter, report, h]
  | _ => exact List.nodup_nil

theorem nodup_pattern (written : String) (accepts : String → Bool) (d : Document) :
    (pattern written accepts d).Nodup := by
  cases d with
  | text s => cases h : accepts s <;> simp [pattern, report, h]
  | _ => exact List.nodup_nil

theorem nodup_form (allowed : List Form) (d : Document) : (form allowed d).Nodup := by
  rcases form_eq allowed d with h | h <;> simp [h, report]

theorem under_injective (s : Step) : Function.Injective (Violation.under s) := by
  rintro ⟨place, complaint⟩ ⟨place', complaint'⟩ h
  simpa [Violation.under] using h

theorem nodup_member {name : String} (h : ∀ x, d.member? name = some x → (c x).Nodup) :
    (member name c d).Nodup := by
  unfold member
  split
  · rename_i x hx
    exact (h x hx).map (under_injective _)
  · exact List.nodup_nil

/-- Parts that different steps lead to have different violations. -/
theorem nodup_flatMap_under {α : Type} {xs : List α} {f : α → Step} {g : α → List Violation}
    (hsteps : (xs.map f).Nodup) (h : ∀ x ∈ xs, (g x).Nodup) :
    (xs.flatMap fun x => (g x).map (Violation.under (f x))).Nodup := by
  rw [List.nodup_flatMap]
  refine ⟨fun x hx => (h x hx).map (under_injective _), ?_⟩
  refine (List.pairwise_map.1 hsteps).imp fun hne v hv hw => ?_
  obtain ⟨v₁, -, rfl⟩ := List.mem_map.1 hv
  obtain ⟨v₂, -, he⟩ := List.mem_map.1 hw
  simp only [Violation.under, Violation.mk.injEq, List.cons.injEq] at he
  exact hne he.1.1.symm

theorem nodup_members (hd : ∀ ms, d = .object ms → Entries.Distinct ms) (h : ∀ x, (c x).Nodup) :
    (members c d).Nodup := by
  cases d with
  | object ms =>
    have hsteps : ((Entries.keys ms).map Step.member).Nodup :=
      (hd ms rfl).map fun _ _ => Step.member.inj
    rw [Entries.keys, List.map_map] at hsteps
    exact nodup_flatMap_under hsteps fun e _ => h e.2
  | _ => exact List.nodup_nil

theorem nodup_items (h : ∀ ds, d = .list ds → ∀ x ∈ ds, (c x).Nodup) : (items c d).Nodup := by
  cases d with
  | list ds =>
    have hsteps : ((ds.zipIdx.map Prod.snd).map Step.index).Nodup :=
      (List.nodup_zipIdx_map_snd ds).map fun _ _ => Step.index.inj
    rw [List.map_map] at hsteps
    rw [items, itemsAfter_eq]
    refine nodup_flatMap_under hsteps fun p hp => h ds rfl p.1 ?_
    exact List.mem_of_getElem? (List.mk_mem_zipIdx_iff_getElem?.1 hp)
  | _ => exact List.nodup_nil

theorem nodup_all_singleton (h : (c d).Nodup) : (all [c] d).Nodup := by
  rwa [all, List.flatMap_singleton]

theorem nodup_all_cons (h : (c d).Nodup) (hcs : (all cs d).Nodup)
    (hapart : ∀ v ∈ c d, v ∉ all cs d) : (all (c :: cs) d).Nodup :=
  List.nodup_append'.2 ⟨h, hcs, hapart⟩

/-- A check of one rule about the document itself, which the other checks do not report. -/
theorem nodup_all_cons_of_single {said : Complaint} (h : c d = [] ∨ c d = report said)
    (hcs : (all cs d).Nodup) (hnot : ⟨[], said⟩ ∉ all cs d) : (all (c :: cs) d).Nodup := by
  rcases h with h | h
  · exact nodup_all_cons (by simp [h]) hcs (by simp [h])
  · exact nodup_all_cons (by simp [h, report]) hcs (by simpa [h, report] using hnot)

theorem nodup_all_cons_member {name : String} (h : ∀ x, d.member? name = some x → (c x).Nodup)
    (hcs : (all cs d).Nodup)
    (hnot : ∀ rest complaint, ⟨.member name :: rest, complaint⟩ ∉ all cs d) :
    (all (member name c :: cs) d).Nodup := by
  refine nodup_all_cons (nodup_member h) hcs ?_
  rintro ⟨place, complaint⟩ hv
  obtain ⟨x, rest, -, rfl, -⟩ := mem_member.1 hv
  exact hnot rest complaint

end Check

namespace Schema
open Check

theorem nodup_condition (d : Document) : (condition d).Nodup := by
  refine nodup_all_cons_of_single (form_eq _ d) ?_ (by simp [mem_all, mem_required, mem_member])
  refine nodup_all_cons_of_single (required_eq _ d) ?_ (by simp [mem_all, mem_member])
  refine nodup_all_singleton (nodup_member fun x _ => ?_)
  refine nodup_all_cons_of_single (form_eq _ x) ?_ (by simp [mem_all, mem_someCharacter])
  exact nodup_all_singleton (nodup_someCharacter x)

theorem nodup_conditions (d : Document) : (conditions d).Nodup := by
  refine nodup_all_cons_of_single (form_eq _ d) ?_ (by simp [mem_all, mem_someItem, mem_items])
  refine nodup_all_cons_of_single (someItem_eq d) ?_ (by simp [mem_all, mem_items])
  exact nodup_all_singleton (nodup_items fun _ _ x _ => nodup_condition x)

theorem nodup_mods {d : Document} (hd : ∀ ms, d = .object ms → Entries.Distinct ms) :
    (mods d).Nodup := by
  refine nodup_all_cons_of_single (form_eq _ d) ?_ (by simp [mem_all, mem_someMember, mem_members])
  refine nodup_all_cons_of_single (someMember_eq d) ?_ (by simp [mem_all, mem_members])
  exact nodup_all_singleton (nodup_members hd fun x => nodup_form _ x)

theorem nodup_operator (d : Document) : (operator d).Nodup := by
  refine nodup_all_cons_of_single (form_eq _ d) ?_ (by simp [mem_all, mem_pattern])
  exact nodup_all_singleton (nodup_pattern _ _ d)

theorem nodup_entry {d : Document}
    (hmods : ∀ ms, d.member? "mods" = some (.object ms) → Entries.Distinct ms) :
    (entry d).Nodup := by
  -- The place or the complaint tells each check from all those after it.
  refine nodup_all_cons_of_single (form_eq _ d) ?_ (by simp [mem_all, mem_required, mem_member])
  refine nodup_all_cons_of_single (required_eq _ d) ?_ (by simp [mem_all, mem_required, mem_member])
  refine nodup_all_cons_of_single (required_eq _ d) ?_ (by simp [mem_all, mem_required, mem_member])
  refine nodup_all_cons_of_single (required_eq _ d) ?_ (by simp [mem_all, mem_member])
  refine nodup_all_cons_member (fun x _ => nodup_form _ x) ?_ (by simp [mem_all, mem_member])
  refine nodup_all_cons_member (fun x _ => nodup_conditions x) ?_ (by simp [mem_all, mem_member])
  refine nodup_all_cons_member (fun x hx => ?_) ?_ (by simp [mem_all, mem_member])
  · exact nodup_mods fun ms hms => hmods ms (hms ▸ hx)
  · exact nodup_all_singleton (nodup_member fun x _ => nodup_operator x)

end Schema

/-- The names of the mods of an entry are different, as the names of an object that is read are. -/
def Document.DistinctMods (entry : Document) : Prop :=
  ∀ ms, entry.member? "mods" = some (.object ms) → Entries.Distinct ms

theorem nodup_violations {config : Document}
    (h : ∀ entries, config = .list entries → ∀ entry ∈ entries, entry.DistinctMods) :
    (violations config).Nodup := by
  refine Check.nodup_all_cons_of_single (Check.form_eq _ config) ?_
    (by simp [Check.mem_all, Check.mem_items])
  refine Check.nodup_all_singleton (Check.nodup_items fun entries he entry hentry => ?_)
  exact Schema.nodup_entry (h entries he entry hentry)

/-! ## Entry by entry -/

/-- The violation with the position that its place begins with, if it is the first, replaced. -/
def Violation.movedTo (i : Nat) (v : Violation) : Violation :=
  match v.place with
  | .index 0 :: rest => ⟨.index i :: rest, v.complaint⟩
  | _ => v

theorem violations_list (entries : List Document) : violations (.list entries) =
    entries.zipIdx.flatMap fun p => (Schema.entry p.1).map (Violation.under (.index p.2)) := by
  have hform : Check.form [.list] (.list entries) = [] := rfl
  have hitems := Check.itemsAfter_eq Schema.entry 0 entries
  simp only [violations, Schema.config, Check.all, List.flatMap_cons, List.flatMap_nil, hform,
    Check.items, hitems, List.nil_append, List.append_nil]

theorem violations_singleton (entry : Document) :
    violations (.list [entry]) = (Schema.entry entry).map (Violation.under (.index 0)) := by
  simp [violations_list]

theorem violations_eq_flatMap (entries : List Document) : violations (.list entries) =
    entries.zipIdx.flatMap fun p => (violations (.list [p.1])).map (Violation.movedTo p.2) := by
  simp only [violations_singleton, List.map_map]
  exact violations_list entries

theorem path_movedTo {entry : Document} {v : Violation} (hv : v ∈ violations (.list [entry]))
    (i : Nat) : ∃ rest, v.path = "/0" ++ rest ∧ (v.movedTo i).path = "/" ++ toString i ++ rest := by
  rw [violations_singleton] at hv
  obtain ⟨w, -, rfl⟩ := List.mem_map.1 hv
  have hpath : ∀ j, (Violation.under (.index j) w).path = "/" ++ toString j ++ pointer w.place := by
    intro j
    simp [Violation.path, Violation.under, pointer, Step.token, String.join_cons]
  exact ⟨pointer w.place, hpath 0, hpath i⟩

/-- A configuration is reported entry by entry, each entry as it would be alone with its position in
place of the first. Every path leads to a part of the configuration, and what is reported is what
is broken, each rule once. -/
theorem violations_complete (entries : List Document) :
    violations (.list entries) = entries.zipIdx.flatMap
      (fun p => (violations (.list [p.1])).map (Violation.movedTo p.2)) ∧
    (∀ entry i, ∀ v ∈ violations (.list [entry]), ∃ rest, v.path = "/0" ++ rest ∧
      (v.movedTo i).path = "/" ++ toString i ++ rest) ∧
    (∀ v ∈ violations (.list entries), ∃ x, (Document.list entries).at? v.place = some x ∧
      Pointer.resolve? (.list entries) v.path = some x) ∧
    (∀ place complaint, ⟨place, complaint⟩ ∈ violations (.list entries) ↔
      Schema.Breaks (.list entries) place complaint) ∧
    ((∀ entry ∈ entries, entry.DistinctMods) → (violations (.list entries)).Nodup) := by
  refine ⟨violations_eq_flatMap entries, fun entry i v hv => path_movedTo hv i, ?_,
    fun place complaint => mem_violations_iff, fun h => ?_⟩
  · rintro ⟨place, complaint⟩ hv
    obtain ⟨x, hx⟩ := (mem_violations_iff.1 hv).at?
    exact ⟨x, hx, Pointer.resolve?_pointer hx⟩
  · refine nodup_violations fun entries' he => ?_
    cases he
    exact h

/-- Two entries with several faults each, one of them in a mod whose name has both characters that a
pointer escapes. -/
def faultyEntries : List Document := [
  .object [("conditions", .list []), ("mods", .object [("a/b~c", .null), ("d", .text "e")])],
  .object [("id", .null), ("conditions", .list [.null, .object [("type", .text "")]]),
    ("conditionalOperator", .text "XOR")]]

theorem distinctMods_of_mem_faultyEntries : ∀ entry ∈ faultyEntries, entry.DistinctMods := by
  intro entry hentry ms hms
  simp only [faultyEntries, List.mem_cons, List.not_mem_nil, or_false] at hentry
  rcases hentry with rfl | rfl
  · cases hms
    simp [Entries.Distinct, Entries.keys]
  · cases hms

theorem violations_complete_faulty :
    (∀ entry ∈ faultyEntries, entry.DistinctMods) ∧ (violations (.list faultyEntries)).Nodup ∧
    (violations (.list faultyEntries)).map Violation.path =
      ["/0", "/0/conditions", "/0/mods/a~1b~0c", "/1", "/1/id", "/1/conditions/0",
        "/1/conditions/1/type", "/1/conditionalOperator"] := by
  have hmods := distinctMods_of_mem_faultyEntries
  exact ⟨hmods, (violations_complete faultyEntries).2.2.2.2 hmods, by decide +kernel⟩

end Rollout
