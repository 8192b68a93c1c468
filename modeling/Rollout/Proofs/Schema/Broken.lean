import Rollout.Proofs.Entries.Extend
import Rollout.Proofs.Operator.Name
import Rollout.Proofs.Schema.Pointer

/-! # Rules that a document breaks

Each rule for configurations is told apart by where it is broken and by what is said of it. The
report has a violation for each rule that is broken, whatever else is wrong, and no other. -/
namespace Rollout
set_option autoImplicit false

/-! ## What a check reports -/

namespace Check

variable {d : Document} {c : Check} {cs : List Check} {place : List Step} {complaint : Complaint}

theorem mem_all {v : Violation} : v ∈ all cs d ↔ ∃ c ∈ cs, v ∈ c d := List.mem_flatMap

theorem mem_report {said : Complaint} :
    ⟨place, complaint⟩ ∈ report said ↔ place = [] ∧ complaint = said := by simp [report]

theorem mem_form {allowed : List Form} : ⟨place, complaint⟩ ∈ form allowed d ↔
    (∀ f ∈ allowed, f.fits d = false) ∧ place = [] ∧ complaint = .form d allowed := by
  unfold form
  split
  · rename_i h
    obtain ⟨f, hf, hfits⟩ := List.any_eq_true.1 h
    exact iff_of_false List.not_mem_nil fun hnone => by simp [hnone.1 f hf] at hfits
  · rename_i h
    rw [mem_report]
    refine (and_iff_right fun f hf => ?_).symm
    exact Bool.eq_false_iff.2 fun hfits => h (List.any_eq_true.2 ⟨f, hf, hfits⟩)

theorem mem_form_object : ⟨place, complaint⟩ ∈ form [.object] d ↔
    (∀ members, d ≠ .object members) ∧ place = [] ∧ complaint = .form d [.object] := by
  rw [mem_form]
  cases d <;> simp [Form.fits]

theorem mem_form_list : ⟨place, complaint⟩ ∈ form [.list] d ↔
    (∀ ds, d ≠ .list ds) ∧ place = [] ∧ complaint = .form d [.list] := by
  rw [mem_form]
  cases d <;> simp [Form.fits]

theorem mem_form_text : ⟨place, complaint⟩ ∈ form [.text] d ↔
    (∀ s, d ≠ .text s) ∧ place = [] ∧ complaint = .form d [.text] := by
  rw [mem_form]
  cases d <;> simp [Form.fits]

theorem mem_form_null_text : ⟨place, complaint⟩ ∈ form [.null, .text] d ↔
    (d ≠ .null ∧ ∀ s, d ≠ .text s) ∧ place = [] ∧ complaint = .form d [.null, .text] := by
  rw [mem_form]
  cases d <;> simp [Form.fits]

theorem mem_required {name : String} : ⟨place, complaint⟩ ∈ required name d ↔
    (∃ members, d = .object members) ∧ d.member? name = none ∧
      place = [] ∧ complaint = .missing name := by
  cases d with
  | object members =>
    cases h : Entries.find? members name <;> simp [required, Document.member?, h, mem_report]
  | _ => simp [required]

theorem mem_member {name : String} : ⟨place, complaint⟩ ∈ member name c d ↔
    ∃ x rest, d.member? name = some x ∧ place = .member name :: rest ∧
      ⟨rest, complaint⟩ ∈ c x := by
  unfold member
  cases d.member? name with
  | none => simp
  | some x =>
    simp only [List.mem_map, Violation.under, Violation.mk.injEq, Option.some.injEq]
    constructor
    · rintro ⟨⟨rest, said⟩, hmem, rfl, rfl⟩
      exact ⟨x, rest, rfl, rfl, hmem⟩
    · rintro ⟨x, rest, rfl, rfl, hmem⟩
      exact ⟨_, hmem, rfl, rfl⟩

theorem mem_all_of_member {name : String} {x : Document} (hc : member name c ∈ cs)
    (hx : d.member? name = some x) (h : ⟨place, complaint⟩ ∈ c x) :
    ⟨.member name :: place, complaint⟩ ∈ all cs d :=
  mem_all.2 ⟨member name c, hc, mem_member.2 ⟨x, place, hx, rfl, h⟩⟩

theorem mem_members : ⟨place, complaint⟩ ∈ members c d ↔
    ∃ ms name x rest, d = .object ms ∧ (name, x) ∈ ms ∧ place = .member name :: rest ∧
      ⟨rest, complaint⟩ ∈ c x := by
  cases d with
  | object ms =>
    simp only [members, List.mem_flatMap, List.mem_map, Violation.under, Violation.mk.injEq,
      Document.object.injEq]
    constructor
    · rintro ⟨⟨name, x⟩, hx, ⟨rest, said⟩, hmem, rfl, rfl⟩
      exact ⟨ms, name, x, rest, rfl, hx, rfl, hmem⟩
    · rintro ⟨_, name, x, rest, rfl, hx, rfl, hmem⟩
      exact ⟨(name, x), hx, _, hmem, rfl, rfl⟩
  | _ => simp [members]

theorem itemsAfter_eq (c : Check) (i : Nat) (ds : List Document) :
    itemsAfter c i ds =
      (ds.zipIdx i).flatMap fun p => (c p.1).map (Violation.under (.index p.2)) := by
  induction ds generalizing i with
  | nil => rfl
  | cons d rest ih => rw [itemsAfter, ih, List.zipIdx_cons, List.flatMap_cons]

theorem mem_items : ⟨place, complaint⟩ ∈ items c d ↔
    ∃ ds i x rest, d = .list ds ∧ ds[i]? = some x ∧ place = .index i :: rest ∧
      ⟨rest, complaint⟩ ∈ c x := by
  cases d with
  | list ds =>
    simp only [items, itemsAfter_eq, List.mem_flatMap, List.mem_map, Violation.under,
      Violation.mk.injEq, Document.list.injEq]
    constructor
    · rintro ⟨⟨x, i⟩, hx, ⟨rest, said⟩, hmem, rfl, rfl⟩
      exact ⟨ds, i, x, rest, rfl, List.mk_mem_zipIdx_iff_getElem?.1 hx, rfl, hmem⟩
    · rintro ⟨_, i, x, rest, rfl, hx, rfl, hmem⟩
      exact ⟨(x, i), List.mk_mem_zipIdx_iff_getElem?.2 hx, _, hmem, rfl, rfl⟩
  | _ => simp [items]

theorem mem_someItem : ⟨place, complaint⟩ ∈ someItem d ↔
    d = .list [] ∧ place = [] ∧ complaint = .noItem := by
  unfold someItem
  split
  · simp [mem_report]
  · rename_i h
    exact iff_of_false List.not_mem_nil fun hd => h hd.1

theorem mem_someMember : ⟨place, complaint⟩ ∈ someMember d ↔
    d = .object [] ∧ place = [] ∧ complaint = .noMember := by
  unfold someMember
  split
  · simp [mem_report]
  · rename_i h
    exact iff_of_false List.not_mem_nil fun hd => h hd.1

theorem mem_someCharacter : ⟨place, complaint⟩ ∈ someCharacter d ↔
    d = .text "" ∧ place = [] ∧ complaint = .noCharacter := by
  cases d with
  | text s => by_cases h : s = "" <;> simp [someCharacter, mem_report, h]
  | _ => simp [someCharacter]

theorem mem_pattern {written : String} {accepts : String → Bool} :
    ⟨place, complaint⟩ ∈ pattern written accepts d ↔
      ∃ s, d = .text s ∧ ¬accepts s = true ∧ place = [] ∧ complaint = .mismatch s written := by
  cases d with
  | text s => cases h : accepts s <;> simp [pattern, mem_report, h]
  | _ => simp [pattern]

end Check

/-! ## The rules -/

namespace Schema

/-- The rules that a condition breaks: it is an object with a type, which is a text that is not
empty. -/
inductive BreaksCondition (d : Document) : List Step → Complaint → Prop
  | form (h : ∀ members, d ≠ .object members) : BreaksCondition d [] (.form d [.object])
  | noType (hd : ∃ members, d = .object members) (h : d.member? "type" = none) :
      BreaksCondition d [] (.missing "type")
  | typeForm {x : Document} (hx : d.member? "type" = some x) (h : ∀ s, x ≠ .text s) :
      BreaksCondition d [.member "type"] (.form x [.text])
  | emptyType (h : d.member? "type" = some (.text "")) :
      BreaksCondition d [.member "type"] .noCharacter

/-- The rules that an entry breaks. -/
inductive BreaksEntry (d : Document) : List Step → Complaint → Prop
  | form (h : ∀ members, d ≠ .object members) : BreaksEntry d [] (.form d [.object])
  | missing {name : String} (hd : ∃ members, d = .object members)
      (hname : name ∈ ["id", "conditions", "mods"]) (h : d.member? name = none) :
      BreaksEntry d [] (.missing name)
  | idForm {x : Document} (hx : d.member? "id" = some x) (h : ∀ s, x ≠ .text s) :
      BreaksEntry d [.member "id"] (.form x [.text])
  | conditionsForm {x : Document} (hx : d.member? "conditions" = some x)
      (h : ∀ ds, x ≠ .list ds) : BreaksEntry d [.member "conditions"] (.form x [.list])
  | noCondition (h : d.member? "conditions" = some (.list [])) :
      BreaksEntry d [.member "conditions"] .noItem
  | condition {ds : List Document} {j : Nat} {x : Document} {place : List Step}
      {complaint : Complaint} (hds : d.member? "conditions" = some (.list ds))
      (hx : ds[j]? = some x) (h : BreaksCondition x place complaint) :
      BreaksEntry d (.member "conditions" :: .index j :: place) complaint
  | modsForm {x : Document} (hx : d.member? "mods" = some x)
      (h : ∀ members, x ≠ .object members) : BreaksEntry d [.member "mods"] (.form x [.object])
  | noMod (h : d.member? "mods" = some (.object [])) : BreaksEntry d [.member "mods"] .noMember
  | modForm {ms : Entries Document} {name : String} {x : Document}
      (hms : d.member? "mods" = some (.object ms)) (hx : (name, x) ∈ ms) (h : ∀ s, x ≠ .text s) :
      BreaksEntry d [.member "mods", .member name] (.form x [.text])
  | operatorForm {x : Document} (hx : d.member? "conditionalOperator" = some x)
      (hnull : x ≠ .null) (h : ∀ s, x ≠ .text s) :
      BreaksEntry d [.member "conditionalOperator"] (.form x [.null, .text])
  | operatorName {s : String} (hs : d.member? "conditionalOperator" = some (.text s))
      (h : ¬(Operator.upper s = "AND" ∨ Operator.upper s = "OR")) :
      BreaksEntry d [.member "conditionalOperator"] (.mismatch s operatorPattern)

/-- The rules that a configuration breaks. -/
inductive Breaks (d : Document) : List Step → Complaint → Prop
  | form (h : ∀ ds, d ≠ .list ds) : Breaks d [] (.form d [.list])
  | entry {ds : List Document} {i : Nat} {x : Document} {place : List Step}
      {complaint : Complaint} (hds : d = .list ds) (hx : ds[i]? = some x)
      (h : BreaksEntry x place complaint) : Breaks d (.index i :: place) complaint

/-! ## The report says what is broken -/

open Check (mem_all mem_all_of_member mem_form_object mem_form_list mem_form_text mem_form_null_text
  mem_required mem_member mem_members mem_items mem_someItem mem_someMember mem_someCharacter
  mem_pattern)

variable {d : Document} {place : List Step} {complaint : Complaint}

theorem mem_condition_iff :
    ⟨place, complaint⟩ ∈ condition d ↔ BreaksCondition d place complaint := by
  constructor
  · intro h
    simp only [condition, mem_all, List.mem_cons, List.not_mem_nil, or_false, exists_eq_or_imp,
      exists_eq_left, mem_form_object, mem_required, mem_member, mem_form_text,
      mem_someCharacter] at h
    rcases h with ⟨h, rfl, rfl⟩ | ⟨hd, h, rfl, rfl⟩ |
      ⟨x, rest, hx, rfl, ⟨h, rfl, rfl⟩ | ⟨rfl, rfl, rfl⟩⟩
    · exact .form h
    · exact .noType hd h
    · exact .typeForm hx h
    · exact .emptyType hx
  · intro h
    cases h with
    | form h => exact mem_all.2 ⟨.form [.object], by simp, mem_form_object.2 ⟨h, rfl, rfl⟩⟩
    | noType hd h =>
      exact mem_all.2 ⟨.required "type", by simp, mem_required.2 ⟨hd, h, rfl, rfl⟩⟩
    | typeForm hx h =>
      refine mem_all_of_member (c := .all [.form [.text], .someCharacter]) (by simp) hx ?_
      exact mem_all.2 ⟨.form [.text], by simp, mem_form_text.2 ⟨h, rfl, rfl⟩⟩
    | emptyType h =>
      refine mem_all_of_member (c := .all [.form [.text], .someCharacter]) (by simp) h ?_
      exact mem_all.2 ⟨.someCharacter, by simp, mem_someCharacter.2 ⟨rfl, rfl, rfl⟩⟩

theorem mem_entry_iff : ⟨place, complaint⟩ ∈ entry d ↔ BreaksEntry d place complaint := by
  constructor
  · intro h
    simp only [entry, conditions, mods, operator, mem_all, List.mem_cons, List.not_mem_nil,
      or_false, exists_eq_or_imp, exists_eq_left, mem_form_object, mem_required, mem_member,
      mem_form_text, mem_form_list, mem_someItem, mem_items, mem_condition_iff, mem_someMember,
      mem_members, mem_form_null_text, mem_pattern, Operator.isOperatorName_iff] at h
    -- One case for each rule, in the order in which the schema checks them.
    rcases h with ⟨h, rfl, rfl⟩ | ⟨hd, h, rfl, rfl⟩ | ⟨hd, h, rfl, rfl⟩ | ⟨hd, h, rfl, rfl⟩ |
      ⟨x, _, hx, rfl, h, rfl, rfl⟩ |
      ⟨x, _, hx, rfl, ⟨h, rfl, rfl⟩ | ⟨rfl, rfl, rfl⟩ | ⟨ds, j, y, _, rfl, hy, rfl, h⟩⟩ |
      ⟨x, _, hx, rfl, ⟨h, rfl, rfl⟩ | ⟨rfl, rfl, rfl⟩ |
        ⟨ms, name, y, _, rfl, hy, rfl, h, rfl, rfl⟩⟩ |
      ⟨x, _, hx, rfl, ⟨⟨hnull, h⟩, rfl, rfl⟩ | ⟨s, rfl, h, rfl, rfl⟩⟩
    · exact .form h
    · exact .missing hd (by simp) h
    · exact .missing hd (by simp) h
    · exact .missing hd (by simp) h
    · exact .idForm hx h
    · exact .conditionsForm hx h
    · exact .noCondition hx
    · exact .condition hx hy h
    · exact .modsForm hx h
    · exact .noMod hx
    · exact .modForm hx hy h
    · exact .operatorForm hx hnull h
    · exact .operatorName hx h
  · intro h
    cases h with
    | form h => exact mem_all.2 ⟨.form [.object], by simp, mem_form_object.2 ⟨h, rfl, rfl⟩⟩
    | @missing name hd hname h =>
      refine mem_all.2 ⟨.required name, ?_, mem_required.2 ⟨hd, h, rfl, rfl⟩⟩
      simp only [List.mem_cons, List.not_mem_nil, or_false] at hname
      rcases hname with rfl | rfl | rfl <;> simp
    | idForm hx h =>
      exact mem_all_of_member (by simp) hx (mem_form_text.2 ⟨h, rfl, rfl⟩)
    | conditionsForm hx h =>
      refine mem_all_of_member (c := conditions) (by simp) hx ?_
      exact mem_all.2 ⟨.form [.list], by simp, mem_form_list.2 ⟨h, rfl, rfl⟩⟩
    | noCondition h =>
      refine mem_all_of_member (c := conditions) (by simp) h ?_
      exact mem_all.2 ⟨.someItem, by simp, mem_someItem.2 ⟨rfl, rfl, rfl⟩⟩
    | condition hds hx h =>
      refine mem_all_of_member (c := conditions) (by simp) hds ?_
      refine mem_all.2 ⟨.items condition, by simp, mem_items.2 ⟨_, _, _, _, rfl, hx, rfl, ?_⟩⟩
      exact mem_condition_iff.2 h
    | modsForm hx h =>
      refine mem_all_of_member (c := mods) (by simp) hx ?_
      exact mem_all.2 ⟨.form [.object], by simp, mem_form_object.2 ⟨h, rfl, rfl⟩⟩
    | noMod h =>
      refine mem_all_of_member (c := mods) (by simp) h ?_
      exact mem_all.2 ⟨.someMember, by simp, mem_someMember.2 ⟨rfl, rfl, rfl⟩⟩
    | modForm hms hx h =>
      refine mem_all_of_member (c := mods) (by simp) hms ?_
      refine mem_all.2 ⟨.members (.form [.text]), by simp, ?_⟩
      exact mem_members.2 ⟨_, _, _, _, rfl, hx, rfl, mem_form_text.2 ⟨h, rfl, rfl⟩⟩
    | operatorForm hx hnull h =>
      refine mem_all_of_member (c := operator) (by simp) hx ?_
      exact mem_all.2 ⟨.form [.null, .text], by simp, mem_form_null_text.2 ⟨⟨hnull, h⟩, rfl, rfl⟩⟩
    | operatorName hs h =>
      refine mem_all_of_member (c := operator) (by simp) hs ?_
      refine mem_all.2 ⟨.pattern operatorPattern isOperatorName, by simp, ?_⟩
      exact mem_pattern.2 ⟨_, rfl, fun hname => h (Operator.isOperatorName_iff _ |>.1 hname),
        rfl, rfl⟩

end Schema

/-- The report of a configuration is made of the rules that it breaks. -/
theorem mem_violations_iff {config : Document} {place : List Step} {complaint : Complaint} :
    ⟨place, complaint⟩ ∈ violations config ↔ Schema.Breaks config place complaint := by
  constructor
  · intro h
    simp only [violations, Schema.config, Check.mem_all, List.mem_cons, List.not_mem_nil, or_false,
      exists_eq_or_imp, exists_eq_left, Check.mem_form_list, Check.mem_items,
      Schema.mem_entry_iff] at h
    rcases h with ⟨h, rfl, rfl⟩ | ⟨ds, i, x, rest, hds, hx, rfl, h⟩
    · exact .form h
    · exact .entry hds hx h
  · intro h
    cases h with
    | form h =>
      exact Check.mem_all.2 ⟨.form [.list], by simp, Check.mem_form_list.2 ⟨h, rfl, rfl⟩⟩
    | entry hds hx h =>
      refine Check.mem_all.2 ⟨.items Schema.entry, by simp, ?_⟩
      exact Check.mem_items.2 ⟨_, _, _, _, hds, hx, rfl, Schema.mem_entry_iff.2 h⟩

/-! ## Where rules are broken -/

namespace Schema

variable {d : Document} {place : List Step} {complaint : Complaint}

theorem BreaksCondition.at? (h : BreaksCondition d place complaint) : ∃ x, d.at? place = some x := by
  cases h with
  | form h => exact ⟨_, rfl⟩
  | noType hd h => exact ⟨_, rfl⟩
  | typeForm hx h => exact ⟨_, Document.at?_cons (Document.step?_member hx) []⟩
  | emptyType h => exact ⟨_, Document.at?_cons (Document.step?_member h) []⟩

theorem BreaksEntry.at? (h : BreaksEntry d place complaint) : ∃ x, d.at? place = some x := by
  cases h with
  | form h => exact ⟨_, rfl⟩
  | missing hd hname h => exact ⟨_, rfl⟩
  | idForm hx h => exact ⟨_, Document.at?_cons (Document.step?_member hx) []⟩
  | conditionsForm hx h => exact ⟨_, Document.at?_cons (Document.step?_member hx) []⟩
  | noCondition h => exact ⟨_, Document.at?_cons (Document.step?_member h) []⟩
  | condition hds hx h =>
    rw [Document.at?_cons (Document.step?_member hds), Document.at?_cons (Document.step?_index hx)]
    exact h.at?
  | modsForm hx h => exact ⟨_, Document.at?_cons (Document.step?_member hx) []⟩
  | noMod h => exact ⟨_, Document.at?_cons (Document.step?_member h) []⟩
  | @modForm ms name _ hms hx h =>
    -- Another member may have the name too, and then the pointer leads to the first of them.
    obtain ⟨y, hy⟩ := Entries.exists_find?_of_mem hx
    have hmember : (Document.object ms).member? name = some y := hy
    rw [Document.at?_cons (Document.step?_member hms)]
    exact ⟨y, Document.at?_cons (Document.step?_member hmember) []⟩
  | operatorForm hx hnull h => exact ⟨_, Document.at?_cons (Document.step?_member hx) []⟩
  | operatorName hs h => exact ⟨_, Document.at?_cons (Document.step?_member hs) []⟩

/-- A rule is broken by a part that is there. -/
theorem Breaks.at? (h : Breaks d place complaint) : ∃ x, d.at? place = some x := by
  cases h with
  | form h => exact ⟨_, rfl⟩
  | entry hds hx h =>
    subst hds
    rw [Document.at?_cons (Document.step?_index hx)]
    exact h.at?

end Schema

end Rollout
