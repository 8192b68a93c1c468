import Rollout.Proofs.Schema.Report
import Rollout.Proofs.Schema.Walk

/-! # The order of the report

The report follows the schema: of an entry it names what is missing, then what is wrong with the id,
with the conditions, with the mods and with the operator. So it follows the document as long as the
faulty members of each entry stand in this order. Items, conditions and mods are reported in the order
in which they are written. -/
namespace Rollout
set_option autoImplicit false

/-- A walk of the document meets the places of the violations one after the other. -/
def Document.InOrder (d : Document) (vs : List Violation) : Prop :=
  vs.Pairwise fun v w => d.rank v.place ≤ d.rank w.place

instance (d : Document) (vs : List Violation) : Decidable (d.InOrder vs) :=
  inferInstanceAs (Decidable (vs.Pairwise fun v w => d.rank v.place ≤ d.rank w.place))

namespace Document

variable {d x : Document} {vs ws : List Violation}

theorem inOrder_append_of_root (h : ∀ v ∈ vs, v.place = []) :
    d.InOrder (vs ++ ws) ↔ d.InOrder ws := by
  have hfirst : ∀ v ∈ vs, ∀ w : Violation, d.rank v.place ≤ d.rank w.place := by
    intro v hv w
    rw [h v hv, rank_nil]
    exact Nat.zero_le _
  rw [InOrder, List.pairwise_append]
  refine ⟨fun hall => hall.2.1, fun hws => ⟨?_, hws, fun v hv w _ => hfirst v hv w⟩⟩
  exact List.pairwise_iff_getElem.2 fun i j hi _ _ => hfirst _ (List.getElem_mem hi) _

theorem inOrder_of_root (h : ∀ v ∈ vs, v.place = []) : d.InOrder vs := by
  rw [← List.append_nil vs, inOrder_append_of_root h]
  exact List.Pairwise.nil

theorem inOrder_under {s : Step} (hx : d.step? s = some x) (hplace : ∀ v ∈ vs, v.place ∈ x.walk) :
    d.InOrder (vs.map (Violation.under s)) ↔ x.InOrder vs := by
  rw [InOrder, List.pairwise_map]
  exact List.Pairwise.iff_of_mem fun hv hw => rank_cons_le_iff hx (hplace _ hv) (hplace _ hw)

/-! ## Parts one after the other -/

theorem step?_of_mem_parts (hd : d.steps.Nodup) {part : Step × Document} (h : part ∈ d.parts) :
    d.step? part.1 = some part.2 := by
  obtain ⟨x, hx⟩ : ∃ x, d.step? part.1 = some x := by
    cases d with
    | list ds =>
      obtain ⟨⟨x, i⟩, hmem, rfl⟩ := List.mem_map.1 h
      exact ⟨x, List.mk_mem_zipIdx_iff_getElem?.1 hmem⟩
    | object ms =>
      obtain ⟨⟨name, x⟩, hmem, rfl⟩ := List.mem_map.1 h
      exact Entries.exists_find?_of_mem hmem
    | _ => cases h
  -- The step leads to the only part that has it.
  obtain ⟨i, hi, rfl⟩ := List.mem_iff_getElem.1 h
  have hstep : d.steps.idxOf d.parts[i].1 = i := by
    have hget : d.steps[i]? = some d.parts[i].1 := by simp [steps, hi]
    obtain ⟨hlt, hget⟩ := List.getElem?_eq_some_iff.1 hget
    rw [← hget]
    exact hd.idxOf_getElem i hlt
  have hpart := getElem?_parts hx
  rw [hstep, List.getElem?_eq_getElem hi, Option.some_inj] at hpart
  rw [hx, hpart]

theorem pairwise_parts (hd : d.steps.Nodup) :
    d.parts.Pairwise fun p q => d.steps.idxOf p.1 < d.steps.idxOf q.1 := by
  have hsteps : d.steps.Pairwise fun s t => d.steps.idxOf s < d.steps.idxOf t := by
    rw [List.pairwise_iff_getElem]
    intro i j hi hj hij
    rwa [hd.idxOf_getElem i hi, hd.idxOf_getElem j hj]
  rwa [steps, List.pairwise_map] at hsteps

theorem inOrder_parts_iff {c : Check} (hd : d.steps.Nodup)
    (hplace : ∀ p ∈ d.parts, ∀ v ∈ c p.2, v.place ∈ p.2.walk) :
    d.InOrder (d.parts.flatMap fun p => (c p.2).map (Violation.under p.1)) ↔
      ∀ p ∈ d.parts, p.2.InOrder (c p.2) := by
  have hinside : ∀ p ∈ d.parts,
      (d.InOrder ((c p.2).map (Violation.under p.1)) ↔ p.2.InOrder (c p.2)) :=
    fun p hp => inOrder_under (step?_of_mem_parts hd hp) (hplace p hp)
  rw [InOrder, List.pairwise_flatMap]
  refine ⟨fun h p hp => (hinside p hp).1 (h.1 p hp),
    fun h => ⟨fun p hp => (hinside p hp).2 (h p hp), ?_⟩⟩
  refine (pairwise_parts hd).imp_of_mem fun hp hq hlt v hv w hw => ?_
  obtain ⟨v, hv', rfl⟩ := List.mem_map.1 hv
  obtain ⟨w, hw', rfl⟩ := List.mem_map.1 hw
  exact Nat.le_of_lt (rank_cons_lt (step?_of_mem_parts hd hp) (step?_of_mem_parts hd hq) hlt
    (hplace _ hp v hv') (hplace _ hq w hw'))

theorem nodup_steps_list (ds : List Document) : (list ds).steps.Nodup := by
  have hsteps : (list ds).steps = (ds.zipIdx.map Prod.snd).map Step.index := by
    rw [steps, parts, List.map_map, List.map_map]
    rfl
  rw [hsteps]
  exact (List.nodup_zipIdx_map_snd ds).map fun _ _ => Step.index.inj

theorem nodup_steps_object {ms : Entries Document} (h : ms.Distinct) :
    (object ms).steps.Nodup := by
  rw [steps_object]
  exact h.map fun _ _ => Step.member.inj

end Document

/-! ## Checks that report in order -/

namespace Check

variable {d : Document} {c : Check}

theorem place_of_report {said : Complaint} {vs : List Violation} (h : vs = [] ∨ vs = report said) :
    ∀ v ∈ vs, v.place = [] := by
  rcases h with rfl | rfl
  · simp
  · simp [report]

/-- A check of one rule about the document itself comes first, as its place does. -/
theorem inOrder_all_cons {cs : List Check} {said : Complaint} (h : c d = [] ∨ c d = report said) :
    d.InOrder (all (c :: cs) d) ↔ d.InOrder (all cs d) :=
  Document.inOrder_append_of_root (place_of_report h)

theorem inOrder_all_singleton : d.InOrder (all [c] d) ↔ d.InOrder (c d) := by
  rw [all, List.flatMap_singleton]

theorem inOrder_items_iff {ds : List Document}
    (hplace : ∀ x ∈ ds, ∀ v ∈ c x, v.place ∈ x.walk) :
    (Document.list ds).InOrder (items c (.list ds)) ↔ ∀ x ∈ ds, x.InOrder (c x) := by
  have hparts : items c (.list ds) =
      (Document.list ds).parts.flatMap fun p => (c p.2).map (Violation.under p.1) := by
    rw [items, itemsAfter_eq, Document.parts, List.flatMap_map]
  have hmem : ∀ p ∈ (Document.list ds).parts, p.2 ∈ ds := by
    intro p hp
    obtain ⟨⟨x, i⟩, hx, rfl⟩ := List.mem_map.1 hp
    exact List.mem_of_getElem? (List.mk_mem_zipIdx_iff_getElem?.1 hx)
  rw [hparts, Document.inOrder_parts_iff (Document.nodup_steps_list ds)
    fun p hp => hplace p.2 (hmem p hp)]
  refine ⟨fun h x hx => ?_, fun h p hp => h p.2 (hmem p hp)⟩
  obtain ⟨i, hi⟩ := List.getElem?_of_mem hx
  refine h (.index i, x) (List.mem_map.2 ⟨(x, i), ?_, rfl⟩)
  exact List.mk_mem_zipIdx_iff_getElem?.2 hi

theorem inOrder_members {ms : Entries Document} (hms : ms.Distinct)
    (hplace : ∀ x, ∀ v ∈ c x, v.place ∈ x.walk) (h : ∀ x : Document, x.InOrder (c x)) :
    (Document.object ms).InOrder (members c (.object ms)) := by
  have hparts : members c (.object ms) =
      (Document.object ms).parts.flatMap fun p => (c p.2).map (Violation.under p.1) := by
    rw [members, Document.parts, List.flatMap_map]
  rw [hparts, Document.inOrder_parts_iff (Document.nodup_steps_object hms)
    fun p _ => hplace p.2]
  exact fun p _ => h p.2

theorem inOrder_member {name : String}
    (hplace : ∀ x, d.member? name = some x → ∀ v ∈ c x, v.place ∈ x.walk)
    (h : ∀ x, d.member? name = some x → x.InOrder (c x)) : d.InOrder (member name c d) := by
  unfold member
  split
  · rename_i x hx
    exact (Document.inOrder_under (Document.step?_member hx) (hplace x hx)).2 (h x hx)
  · exact List.Pairwise.nil

end Check

namespace Schema
open Check

variable {d : Document}

theorem inOrder_form (allowed : List Form) (d : Document) : d.InOrder (form allowed d) :=
  Document.inOrder_of_root (place_of_report (form_eq allowed d))

theorem inOrder_condition (d : Document) : d.InOrder (condition d) := by
  rw [condition, inOrder_all_cons (form_eq _ d), inOrder_all_cons (required_eq _ d),
    inOrder_all_singleton]
  have hroot : ∀ x, ∀ v ∈ all [.form [.text], .someCharacter] x, v.place = [] := by
    rintro x ⟨place, complaint⟩ hv
    simp only [mem_all, List.mem_cons, List.not_mem_nil, or_false, exists_eq_or_imp,
      exists_eq_left, mem_form_text, mem_someCharacter] at hv
    rcases hv with ⟨-, h, -⟩ | ⟨-, h, -⟩ <;> exact h
  refine inOrder_member (fun x _ v hv => ?_) fun x _ => Document.inOrder_of_root (hroot x)
  rw [hroot x v hv]
  exact Document.mem_walk rfl

theorem inOrder_conditions (d : Document) : d.InOrder (conditions d) := by
  rw [conditions, inOrder_all_cons (form_eq _ d), inOrder_all_cons (someItem_eq d),
    inOrder_all_singleton]
  cases d with
  | list ds =>
    refine (inOrder_items_iff fun x _ v hv => ?_).2 fun x _ => inOrder_condition x
    obtain ⟨y, hy⟩ := (mem_condition_iff.1 hv).at?
    exact Document.mem_walk hy
  | _ => exact List.Pairwise.nil

theorem inOrder_mods {d : Document} (hd : ∀ ms, d = .object ms → Entries.Distinct ms) :
    d.InOrder (mods d) := by
  rw [mods, inOrder_all_cons (form_eq _ d), inOrder_all_cons (someMember_eq d),
    inOrder_all_singleton]
  cases d with
  | object ms =>
    refine inOrder_members (hd ms rfl) (fun x v hv => ?_) (inOrder_form _)
    rw [place_of_report (form_eq _ x) v hv]
    exact Document.mem_walk rfl
  | _ => exact List.Pairwise.nil

theorem inOrder_operator (d : Document) : d.InOrder (operator d) := by
  rw [operator, inOrder_all_cons (form_eq _ d), inOrder_all_singleton]
  refine Document.inOrder_of_root ?_
  rintro ⟨place, complaint⟩ hv
  obtain ⟨-, -, -, hplace, -⟩ := mem_pattern.1 hv
  exact hplace

/-! ## Entries -/

/-- The checks of the members of an entry, in the order of the schema. -/
def memberChecks : List (String × Check) :=
  [("id", .form [.text]), ("conditions", conditions), ("mods", mods),
    ("conditionalOperator", operator)]

theorem entry_eq (d : Document) : entry d =
    all [.form [.object], .required "id", .required "conditions", .required "mods"] d ++
      memberChecks.flatMap fun p => member p.1 p.2 d := by
  simp [entry, all, memberChecks]

/-- A rule is broken within a member. -/
def BreaksMember (d : Document) (name : String) : Prop :=
  ∃ rest complaint, BreaksEntry d (.member name :: rest) complaint

theorem place_mem_walk_of_entry {v : Violation} (hv : v ∈ entry d) : v.place ∈ d.walk := by
  obtain ⟨x, hx⟩ := (mem_entry_iff.1 hv).at?
  exact Document.mem_walk hx

theorem mem_entry_of_memberChecks {p : String × Check} (hp : p ∈ memberChecks) {v : Violation}
    (hv : v ∈ member p.1 p.2 d) : v ∈ entry d := by
  rw [entry_eq]
  exact List.mem_append_right _ (List.mem_flatMap.2 ⟨p, hp, hv⟩)

theorem place_mem_walk_of_member {p : String × Check} (hp : p ∈ memberChecks) {x : Document}
    (hx : d.member? p.1 = some x) {v : Violation} (hv : v ∈ p.2 x) : v.place ∈ x.walk := by
  have hmember : v.under (.member p.1) ∈ member p.1 p.2 d :=
    mem_member.2 ⟨x, v.place, hx, rfl, hv⟩
  obtain ⟨y, hy⟩ := (mem_entry_iff.1 (mem_entry_of_memberChecks hp hmember)).at?
  rw [Document.at?_cons (Document.step?_member hx)] at hy
  exact Document.mem_walk hy

theorem breaksMember_iff {p : String × Check} (hp : p ∈ memberChecks) :
    BreaksMember d p.1 ↔ ∃ v, v ∈ member p.1 p.2 d := by
  constructor
  · rintro ⟨rest, complaint, h⟩
    have hentry := mem_entry_iff.2 h
    rw [entry_eq, List.mem_append, List.mem_flatMap] at hentry
    rcases hentry with hroot | ⟨q, hq, hmem⟩
    · simp [mem_all, mem_required, mem_form_object] at hroot
    · -- The checks are told apart by the names of the members.
      have hname : q.1 = p.1 := by
        obtain ⟨x, _, -, hplace, -⟩ := mem_member.1 hmem
        exact (Step.member.inj (List.cons.inj hplace).1).symm
      have hqp : q = p := List.inj_on_of_nodup_map (by decide) hq hp hname
      exact ⟨_, hqp ▸ hmem⟩
  · rintro ⟨⟨place, complaint⟩, hv⟩
    obtain ⟨x, rest, hx, rfl, hmem⟩ := mem_member.1 hv
    exact ⟨rest, complaint, mem_entry_iff.1 (mem_entry_of_memberChecks hp hv)⟩

theorem inOrder_memberChecks (hmods : d.DistinctMods) {p : String × Check} (hp : p ∈ memberChecks) :
    d.InOrder (member p.1 p.2 d) := by
  refine inOrder_member (fun x hx v hv => place_mem_walk_of_member hp hx hv) fun x hx => ?_
  simp only [memberChecks, List.mem_cons, List.not_mem_nil, or_false] at hp
  rcases hp with rfl | rfl | rfl | rfl
  · exact inOrder_form _ x
  · exact inOrder_conditions x
  · exact inOrder_mods fun ms hms => hmods ms (hms ▸ hx)
  · exact inOrder_operator x

/-- What stands first has the lower rank, so two faulty members are reported in order exactly if the
one that is reported first stands first. -/
theorem rank_le_iff {p q : String × Check} (hp : p ∈ memberChecks) (hq : q ∈ memberChecks)
    (hne : p.1 ≠ q.1) :
    (∀ v ∈ member p.1 p.2 d, ∀ w ∈ member q.1 q.2 d, d.rank v.place ≤ d.rank w.place) ↔
      (BreaksMember d p.1 → BreaksMember d q.1 →
        d.steps.idxOf (.member p.1) < d.steps.idxOf (.member q.1)) := by
  rw [breaksMember_iff hp, breaksMember_iff hq]
  constructor
  · rintro h ⟨⟨place, complaint⟩, hv⟩ ⟨⟨place', complaint'⟩, hw⟩
    have hle := h _ hv _ hw
    obtain ⟨x, rest, hx, rfl, hmem⟩ := mem_member.1 hv
    obtain ⟨y, rest', hy, rfl, hmem'⟩ := mem_member.1 hw
    by_contra hnot
    have hdiffer : d.steps.idxOf (.member q.1) ≠ d.steps.idxOf (.member p.1) := by
      intro he
      have hsame := Document.eq_of_idxOf_steps_eq (Document.step?_member hy)
        (Document.step?_member hx) he
      exact hne (Step.member.inj hsame).symm
    have hlt := Document.rank_cons_lt (Document.step?_member hy) (Document.step?_member hx)
      (by omega) (place_mem_walk_of_member hq hy hmem') (place_mem_walk_of_member hp hx hmem)
    exact absurd hle (Nat.not_le.2 hlt)
  · rintro h ⟨place, complaint⟩ hv ⟨place', complaint'⟩ hw
    have hlt := h ⟨_, hv⟩ ⟨_, hw⟩
    obtain ⟨x, rest, hx, rfl, hmem⟩ := mem_member.1 hv
    obtain ⟨y, rest', hy, rfl, hmem'⟩ := mem_member.1 hw
    exact Nat.le_of_lt (Document.rank_cons_lt (Document.step?_member hx) (Document.step?_member hy)
      hlt (place_mem_walk_of_member hp hx hmem) (place_mem_walk_of_member hq hy hmem'))

/-- The faulty members of an entry stand in the order in which the schema names them. -/
def InSchemaOrder (d : Document) : Prop :=
  ["id", "conditions", "mods", "conditionalOperator"].Pairwise fun a b =>
    BreaksMember d a → BreaksMember d b → d.steps.idxOf (.member a) < d.steps.idxOf (.member b)

theorem inOrder_entry_iff (hmods : d.DistinctMods) : d.InOrder (entry d) ↔ InSchemaOrder d := by
  have hroot : ∀ v ∈ all [.form [.object], .required "id", .required "conditions",
      .required "mods"] d, v.place = [] := by
    rintro ⟨place, complaint⟩ hv
    simp only [mem_all, List.mem_cons, List.not_mem_nil, or_false, exists_eq_or_imp,
      exists_eq_left, mem_form_object, mem_required] at hv
    rcases hv with ⟨-, h, -⟩ | ⟨-, -, h, -⟩ | ⟨-, -, h, -⟩ | ⟨-, -, h, -⟩ <;> exact h
  have hnames : memberChecks.Pairwise fun p q => p.1 ≠ q.1 := by
    simp [memberChecks]
  rw [entry_eq, Document.inOrder_append_of_root hroot, Document.InOrder, List.pairwise_flatMap]
  have hmap : ["id", "conditions", "mods", "conditionalOperator"] = memberChecks.map Prod.fst := rfl
  rw [InSchemaOrder, hmap, List.pairwise_map]
  constructor
  · rintro ⟨-, h⟩
    exact (hnames.and h).imp_of_mem fun hp hq hpq => (rank_le_iff hp hq hpq.1).1 hpq.2
  · intro h
    refine ⟨fun p hp => inOrder_memberChecks hmods hp, ?_⟩
    exact (hnames.and h).imp_of_mem fun hp hq hpq => (rank_le_iff hp hq hpq.1).2 hpq.2

end Schema

/-- Every violation is about a part of the configuration, and the report follows the configuration
exactly if the faulty members of each entry stand in the order in which the schema names them. -/
theorem violations_inOrder_iff {config : Document}
    (h : ∀ entries, config = .list entries → ∀ entry ∈ entries, entry.DistinctMods) :
    (∀ v ∈ violations config, v.place ∈ config.walk) ∧
    (config.InOrder (violations config) ↔ ∀ entries, config = .list entries →
      ∀ entry ∈ entries, Schema.InSchemaOrder entry) := by
  constructor
  · rintro ⟨place, complaint⟩ hv
    obtain ⟨x, hx⟩ := (mem_violations_iff.1 hv).at?
    exact Document.mem_walk hx
  · rw [violations, Schema.config, Check.inOrder_all_cons (Check.form_eq _ config),
      Check.inOrder_all_singleton]
    cases config with
    | list entries =>
      rw [Check.inOrder_items_iff fun entry _ v hv => Schema.place_mem_walk_of_entry hv]
      have hentry : ∀ entry ∈ entries, (entry.InOrder (Schema.entry entry) ↔
          Schema.InSchemaOrder entry) :=
        fun entry hmem => Schema.inOrder_entry_iff (h entries rfl entry hmem)
      constructor
      · rintro hall _ ⟨⟩ entry hmem
        exact (hentry entry hmem).1 (hall entry hmem)
      · intro hall entry hmem
        exact (hentry entry hmem).2 (hall entries rfl entry hmem)
    | _ => exact iff_of_true List.Pairwise.nil (by simp)

theorem violations_inOrder_iff_faulty :
    (∀ entry ∈ faultyEntries, entry.DistinctMods) ∧
    (Document.list faultyEntries).InOrder (violations (.list faultyEntries)) ∧
    ∀ entry ∈ faultyEntries, Schema.InSchemaOrder entry := by
  have horder : (Document.list faultyEntries).InOrder (violations (.list faultyEntries)) := by
    decide +kernel
  refine ⟨distinctMods_of_mem_faultyEntries, horder, ?_⟩
  refine (violations_inOrder_iff ?_).2.1 horder faultyEntries rfl
  rintro _ ⟨⟩
  exact distinctMods_of_mem_faultyEntries

/-- An entry whose mods are empty and whose id is no text, in this order. -/
def misplacedEntry : Document :=
  .object [("mods", .object []), ("id", .number (.integer 1 (by decide))),
    ("conditions", .list [.object [("type", .text "ALWAYS")]])]

/-- The id is reported first, and the mods stand first. -/
theorem violations_misplaced_not_inOrder :
    ¬(Document.list [misplacedEntry]).InOrder (violations (.list [misplacedEntry])) ∧
    (violations (.list [misplacedEntry])).map Violation.path = ["/0/id", "/0/mods"] ∧
    (Document.list [misplacedEntry]).walk.map pointer =
      ["", "/0", "/0/mods", "/0/id", "/0/conditions", "/0/conditions/0", "/0/conditions/0/type"] := by
  decide +kernel

end Rollout
