import Rollout.Proofs.Operator.Name
import Rollout.Proofs.Variant.Parsed

/-! # Documents that break no rule

A check reports nothing exactly when the document has the form that the check is about. Put
together: the schema of configurations has nothing to report exactly when the document is a list of
entries of the right shape. -/
namespace Rollout
set_option autoImplicit false

/-! ## Checks -/

namespace Check

theorem all_nil (d : Document) : all [] d = [] := rfl

theorem all_cons_eq_nil_iff {c : Check} {cs : List Check} {d : Document} :
    all (c :: cs) d = [] ↔ c d = [] ∧ all cs d = [] := by
  rw [all, List.flatMap_cons, List.append_eq_nil_iff, all]

theorem form_eq_nil_iff {allowed : List Form} {d : Document} :
    form allowed d = [] ↔ ∃ f ∈ allowed, f.fits d = true := by
  unfold form
  split
  · rename_i h
    exact iff_of_true rfl (List.any_eq_true.1 h)
  · rename_i h
    exact iff_of_false (List.cons_ne_nil _ _) fun hf => h (List.any_eq_true.2 hf)

theorem form_object_eq_nil_iff {d : Document} :
    form [.object] d = [] ↔ ∃ members, d = .object members := by
  rw [form_eq_nil_iff]
  cases d <;> simp [Form.fits]

theorem form_list_eq_nil_iff {d : Document} : form [.list] d = [] ↔ ∃ ds, d = .list ds := by
  rw [form_eq_nil_iff]
  cases d <;> simp [Form.fits]

theorem form_text_eq_nil_iff {d : Document} : form [.text] d = [] ↔ ∃ s, d = .text s := by
  rw [form_eq_nil_iff]
  cases d <;> simp [Form.fits]

theorem required_eq_nil_iff {name : String} {members : Entries Document} :
    required name (.object members) = [] ↔ ∃ v, (Document.object members).member? name = some v := by
  rw [required, Document.member?]
  cases members.find? name <;> simp [report]

theorem member_eq_nil_iff {name : String} {c : Check} {d : Document} :
    member name c d = [] ↔ ∀ v, d.member? name = some v → c v = [] := by
  unfold member
  cases d.member? name <;> simp

theorem members_eq_nil_iff {c : Check} {members : Entries Document} :
    Check.members c (.object members) = [] ↔ ∀ e ∈ members, c e.2 = [] := by
  simp [Check.members]

theorem itemsAfter_eq_nil_iff {c : Check} {i : Nat} {ds : List Document} :
    itemsAfter c i ds = [] ↔ ∀ d ∈ ds, c d = [] := by
  induction ds generalizing i with
  | nil => simp [itemsAfter]
  | cons d rest ih =>
    rw [itemsAfter, List.append_eq_nil_iff, List.map_eq_nil_iff, ih, List.forall_mem_cons]

theorem items_eq_nil_iff {c : Check} {ds : List Document} :
    items c (.list ds) = [] ↔ ∀ d ∈ ds, c d = [] := itemsAfter_eq_nil_iff

theorem someItem_eq_nil_iff {ds : List Document} : someItem (.list ds) = [] ↔ ds ≠ [] := by
  cases ds <;> simp [someItem, report]

theorem someMember_eq_nil_iff {members : Entries Document} :
    someMember (.object members) = [] ↔ members ≠ [] := by
  cases members <;> simp [someMember, report]

theorem someCharacter_eq_nil_iff {s : String} : someCharacter (.text s) = [] ↔ s ≠ "" := by
  by_cases h : s = "" <;> simp [someCharacter, report, h]

end Check

/-! ## Shapes -/

namespace Document

def IsCondition (d : Document) : Prop := ∃ tag, d.member? "type" = some (.text tag) ∧ tag ≠ ""

def IsMods (d : Document) : Prop :=
  ∃ members, d = .object members ∧ members ≠ [] ∧ ∀ e ∈ members, ∃ s, e.2 = .text s

structure IsEntry (entry : Document) : Prop where
  id : ∃ id, entry.member? "id" = some (.text id)
  conditions : ∃ ds, entry.member? "conditions" = some (.list ds) ∧ ds ≠ [] ∧
    ∀ d ∈ ds, d.IsCondition
  mods : ∃ mods, entry.member? "mods" = some mods ∧ mods.IsMods
  operator : Operator.Fits (entry.member? "conditionalOperator")

theorem isObject_of_member? {d v : Document} {name : String} (h : d.member? name = some v) :
    ∃ members, d = .object members := by
  cases d with
  | object members => exact ⟨members, rfl⟩
  | _ => cases h

end Document

/-! ## What the schema asks for -/

namespace Schema

theorem condition_eq_nil_iff {d : Document} : condition d = [] ↔ d.IsCondition := by
  simp only [condition, Check.all_cons_eq_nil_iff, Check.all_nil, and_true,
    Check.form_object_eq_nil_iff, Check.member_eq_nil_iff, Check.form_text_eq_nil_iff]
  constructor
  · rintro ⟨⟨members, rfl⟩, hreq, htype⟩
    obtain ⟨v, hv⟩ := Check.required_eq_nil_iff.1 hreq
    obtain ⟨⟨tag, rfl⟩, hne⟩ := htype v hv
    exact ⟨tag, hv, Check.someCharacter_eq_nil_iff.1 hne⟩
  · rintro ⟨tag, htag, hne⟩
    obtain ⟨members, rfl⟩ := Document.isObject_of_member? htag
    refine ⟨⟨members, rfl⟩, Check.required_eq_nil_iff.2 ⟨_, htag⟩, fun v hv => ?_⟩
    rw [htag] at hv
    cases hv
    exact ⟨⟨tag, rfl⟩, Check.someCharacter_eq_nil_iff.2 hne⟩

theorem mods_eq_nil_iff {d : Document} : mods d = [] ↔ d.IsMods := by
  simp only [mods, Check.all_cons_eq_nil_iff, Check.all_nil, and_true,
    Check.form_object_eq_nil_iff]
  constructor
  · rintro ⟨⟨members, rfl⟩, hsome, htexts⟩
    refine ⟨members, rfl, Check.someMember_eq_nil_iff.1 hsome, fun e he => ?_⟩
    exact Check.form_text_eq_nil_iff.1 (Check.members_eq_nil_iff.1 htexts e he)
  · rintro ⟨members, rfl, hne, htexts⟩
    refine ⟨⟨members, rfl⟩, Check.someMember_eq_nil_iff.2 hne, ?_⟩
    exact Check.members_eq_nil_iff.2 fun e he => Check.form_text_eq_nil_iff.2 (htexts e he)

theorem conditions_eq_nil_iff {d : Document} :
    conditions d = [] ↔ ∃ ds, d = .list ds ∧ ds ≠ [] ∧ ∀ c ∈ ds, c.IsCondition := by
  simp only [conditions, Check.all_cons_eq_nil_iff, Check.all_nil, and_true,
    Check.form_list_eq_nil_iff]
  constructor
  · rintro ⟨⟨ds, rfl⟩, hsome, hitems⟩
    refine ⟨ds, rfl, Check.someItem_eq_nil_iff.1 hsome, fun c hc => ?_⟩
    exact condition_eq_nil_iff.1 (Check.items_eq_nil_iff.1 hitems c hc)
  · rintro ⟨ds, rfl, hne, hitems⟩
    refine ⟨⟨ds, rfl⟩, Check.someItem_eq_nil_iff.2 hne, ?_⟩
    exact Check.items_eq_nil_iff.2 fun c hc => condition_eq_nil_iff.2 (hitems c hc)

theorem operator_eq_nil_iff {d : Document} : operator d = [] ↔ Operator.Fits (some d) := by
  simp only [operator, Check.all_cons_eq_nil_iff, Check.all_nil, and_true, Check.form_eq_nil_iff]
  cases d with
  | text s =>
    by_cases h : isOperatorName s = true <;>
      simp [Form.fits, Check.pattern, Check.report, Operator.Fits, h]
  | _ => simp [Form.fits, Check.pattern, Operator.Fits]

theorem entry_eq_nil_iff {d : Document} : entry d = [] ↔ d.IsEntry := by
  simp only [entry, Check.all_cons_eq_nil_iff, Check.all_nil, and_true,
    Check.form_object_eq_nil_iff, Check.member_eq_nil_iff, Check.form_text_eq_nil_iff,
    conditions_eq_nil_iff, mods_eq_nil_iff, operator_eq_nil_iff]
  constructor
  · rintro ⟨⟨members, rfl⟩, hid, hconditions, hmods, hid', hconditions', hmods', hoperator⟩
    obtain ⟨v, hv⟩ := Check.required_eq_nil_iff.1 hid
    obtain ⟨id, rfl⟩ := hid' v hv
    obtain ⟨w, hw⟩ := Check.required_eq_nil_iff.1 hconditions
    obtain ⟨ds, rfl, hds⟩ := hconditions' w hw
    obtain ⟨m, hm⟩ := Check.required_eq_nil_iff.1 hmods
    refine ⟨⟨id, hv⟩, ⟨ds, hw, hds⟩, ⟨m, hm, hmods' m hm⟩, ?_⟩
    cases hop : (Document.object members).member? "conditionalOperator" with
    | none => exact .inl rfl
    | some op => exact hoperator op hop
  · rintro ⟨⟨id, hid⟩, ⟨ds, hds, hds'⟩, ⟨m, hm, hm'⟩, hoperator⟩
    obtain ⟨members, rfl⟩ := Document.isObject_of_member? hid
    refine ⟨⟨members, rfl⟩, Check.required_eq_nil_iff.2 ⟨_, hid⟩,
      Check.required_eq_nil_iff.2 ⟨_, hds⟩, Check.required_eq_nil_iff.2 ⟨_, hm⟩, ?_, ?_, ?_, ?_⟩
    · intro v hv
      exact ⟨id, Option.some.inj (hv.symm.trans hid)⟩
    · intro v hv
      exact ⟨ds, Option.some.inj (hv.symm.trans hds), hds'⟩
    · intro v hv
      rw [Option.some.inj (hv.symm.trans hm)]
      exact hm'
    · intro v hv
      rw [← hv]
      exact hoperator

end Schema

theorem violations_eq_nil_iff {config : Document} : violations config = [] ↔
    ∃ entries, config = .list entries ∧ ∀ entry ∈ entries, entry.IsEntry := by
  simp only [violations, Schema.config, Check.all_cons_eq_nil_iff, Check.all_nil, and_true,
    Check.form_list_eq_nil_iff]
  constructor
  · rintro ⟨⟨entries, rfl⟩, hitems⟩
    refine ⟨entries, rfl, fun entry he => ?_⟩
    exact Schema.entry_eq_nil_iff.1 (Check.items_eq_nil_iff.1 hitems entry he)
  · rintro ⟨entries, rfl, hitems⟩
    refine ⟨⟨entries, rfl⟩, Check.items_eq_nil_iff.2 fun entry he => ?_⟩
    exact Schema.entry_eq_nil_iff.2 (hitems entry he)

end Rollout
