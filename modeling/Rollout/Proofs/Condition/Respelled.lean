import Rollout.Proofs.Condition.Builtin
import Rollout.Proofs.Condition.Natural
import Rollout.Proofs.Fault.Matched

/-! # Conditions with their numbers in another form

A number can be written in several forms, as an integer and as a binary64 number or as either zero.
A condition of a built-in kind whose fields hold its numbers in other forms is refused with the same
fault, or it is built into a condition that gives the same answers. -/
namespace Rollout
set_option autoImplicit false

/-! ## Documents -/

namespace Document

/-- The documents agree but for the forms of the numbers in them. -/
inductive Respells : Document → Document → Prop
  | same (d : Document) : Respells d d
  | number {m n : Number} (h : m.value = n.value) : Respells (.number m) (.number n)
  | list {ds es : List Document} (h : List.Forall₂ Respells ds es) : Respells (.list ds) (.list es)
  | object {ms ns : Entries Document} (hkeys : ms.keys = ns.keys)
      (h : List.Forall₂ (fun e f => Respells e.2 f.2) ms ns) : Respells (.object ms) (.object ns)

/-- Members of the same names in the same order are related, each in the way of its name. -/
inductive MembersMatch (R : String → Document → Document → Prop) : Document → Document → Prop
  | same (d : Document) : MembersMatch R d d
  | object {ms ns : Entries Document} (hkeys : ms.keys = ns.keys)
      (h : List.Forall₂ (fun e f => R e.1 e.2 f.2) ms ns) : MembersMatch R (.object ms) (.object ns)

theorem MembersMatch.member? {R : String → Document → Document → Prop} {d e : Document}
    (hR : ∀ name d, R name d d) (h : MembersMatch R d e) (name : String) :
    Option.Rel (R name) (d.member? name) (e.member? name) := by
  cases h with
  | same d => exact optionRel_refl (hR name) _
  | @object ms ns hkeys h =>
    show Option.Rel (R name) (ms.find? name) (ns.find? name)
    induction h with
    | nil => exact .none
    | @cons x y _ _ hxy _ ih =>
      obtain ⟨k, d⟩ := x
      obtain ⟨k', e⟩ := y
      obtain ⟨rfl, hrest⟩ := List.cons.inj hkeys
      rw [Entries.find?, Entries.find?]
      split
      · rename_i hname
        subst hname
        exact .some hxy
      · exact ih hrest

/-- A field of a condition is respelled, but for the type. -/
def RespellsField (name : String) (d e : Document) : Prop :=
  if name = "type" then d = e else d.Respells e

def RespellsCondition : Document → Document → Prop := MembersMatch RespellsField

theorem respellsField_refl (name : String) (d : Document) : RespellsField name d d := by
  unfold RespellsField
  split
  · rfl
  · exact .same d

variable {d e : Document}

theorem RespellsCondition.field (h : d.RespellsCondition e) (name : String) (hname : name ≠ "type") :
    Option.Rel Respells (d.member? name) (e.member? name) := by
  have hfield := MembersMatch.member? respellsField_refl h name
  unfold RespellsField at hfield
  simpa only [if_neg hname] using hfield

theorem RespellsCondition.type_eq (h : d.RespellsCondition e) :
    d.member? "type" = e.member? "type" := by
  have htype := MembersMatch.member? respellsField_refl h "type"
  unfold RespellsField at htype
  simp only [if_pos] at htype
  exact eq_of_optionRel htype

/-! ## What a field is read as -/

theorem Respells.number? (h : d.Respells e) :
    Option.Rel (fun m n => m.value = n.value) d.number? e.number? := by
  cases h with
  | same d => exact optionRel_refl (fun n => Eq.refl n.value) _
  | number h => exact .some h
  | list h => exact .none
  | object hkeys h => exact .none

theorem Respells.text? (h : d.Respells e) : d.text? = e.text? := by
  cases h <;> rfl

theorem Respells.items? (h : d.Respells e) :
    Option.Rel (List.Forall₂ Respells) d.items? e.items? := by
  cases h with
  | same d => exact optionRel_refl (fun ds => List.forall₂_same.2 fun d _ => .same d) _
  | number h => exact .none
  | list h => exact .some h
  | object hkeys h => exact .none

theorem mapM_text?_of_respells {ds es : List Document} (h : List.Forall₂ Respells ds es) :
    ds.mapM text? = es.mapM text? := by
  induction h with
  | nil => rfl
  | cons hde _ ih => rw [List.mapM_cons, List.mapM_cons, hde.text?, ih]

end Document

/-! ## Fields -/

namespace Field

section Readers

variable {spec spec' : Document} {field : String} (tag : String)
  (h : Option.Rel Document.Respells (spec.member? field) (spec'.member? field))
include h

theorem texts_respelled : texts spec field tag = texts spec' field tag := by
  have hitems := optionRel_bind h fun d e hde => hde.items?
  unfold texts
  revert hitems
  generalize (spec.member? field).bind Document.items? = x
  generalize (spec'.member? field).bind Document.items? = y
  rintro (⟨hds⟩ | _)
  · cases hds with
    | nil => rfl
    | cons hd hrest => simp only [Document.mapM_text?_of_respells (.cons hd hrest)]
  · rfl

theorem number_respelled : Fault.Matched (fun x y => x.value = y.value)
    (number spec field tag) (number spec' field tag) := by
  have hnumber := optionRel_bind h fun d e hde => hde.number?
  unfold number
  revert hnumber
  generalize (spec.member? field).bind Document.number? = x
  generalize (spec'.member? field).bind Document.number? = y
  rintro (⟨hmn⟩ | _)
  · exact .ok (Number.value_toBinary64_congr hmn)
  · exact .error _

theorem natural_respelled : natural spec field tag = natural spec' field tag := by
  have hnumber := optionRel_bind h fun d e hde => hde.number?
  unfold natural
  revert hnumber
  generalize (spec.member? field).bind Document.number? = x
  generalize (spec'.member? field).bind Document.number? = y
  rintro (⟨hmn⟩ | _)
  · simp only [Option.bind_some, naturalOf?_congr hmn]
  · rfl

end Readers

theorem rangeOf_congr {lower lower' upper upper' : Binary64} (hlower : lower.value = lower'.value)
    (hupper : upper.value = upper'.value) (tag : String) :
    Fault.Matched (fun r r' : PercentRange => r.lower.value = r'.lower.value ∧
      r.upper.value = r'.upper.value) (rangeOf lower upper tag) (rangeOf lower' upper' tag) := by
  have hbounds : 0 ≤ lower.units ∧ upper.units ≤ Binary64.unitsOf 100 ↔
      0 ≤ lower'.units ∧ upper'.units ≤ Binary64.unitsOf 100 := by
    rw [Binary64.units_eq_iff_value_eq.2 hlower, Binary64.units_eq_iff_value_eq.2 hupper]
  have hlt : lower < upper ↔ lower' < upper' := by
    rw [Binary64.lt_iff_value_lt, Binary64.lt_iff_value_lt, hlower, hupper]
  unfold rangeOf
  by_cases hin : 0 ≤ lower.units ∧ upper.units ≤ Binary64.unitsOf 100
  · rw [dif_pos hin, dif_pos (hbounds.1 hin)]
    by_cases hord : lower < upper
    · rw [dif_pos hord, dif_pos (hlt.1 hord)]
      exact .ok ⟨hlower, hupper⟩
    · rw [dif_neg hord, dif_neg (mt hlt.2 hord)]
      exact .error _
  · rw [dif_neg hin, dif_neg (mt hbounds.2 hin)]
    exact .error _

variable {spec spec' : Document} (h : spec.RespellsCondition spec') (tag : String)
include h

theorem percentRange_respelled : Fault.Matched (fun r r' : PercentRange =>
    r.lower.value = r'.lower.value ∧ r.upper.value = r'.upper.value)
      (percentRange spec tag) (percentRange spec' tag) := by
  refine (number_respelled tag (h.field "from" (by decide))).bind fun x x' _ hx => ?_
  refine (number_respelled tag (h.field "to" (by decide))).bind fun y y' _ hy => ?_
  exact rangeOf_congr hx hy tag

theorem chance_respelled : Fault.Matched (fun c c' : Chance => c.value.value = c'.value.value)
    (chance spec tag) (chance spec' tag) := by
  refine (number_respelled tag (h.field "value" (by decide))).bind fun x x' _ hx => ?_
  have hbounds : 0 ≤ x.units ∧ x.units ≤ Binary64.unitsOf 1 ↔
      0 ≤ x'.units ∧ x'.units ≤ Binary64.unitsOf 1 := by
    rw [Binary64.units_eq_iff_value_eq.2 hx]
  by_cases hin : 0 ≤ x.units ∧ x.units ≤ Binary64.unitsOf 1
  · rw [dif_pos hin, dif_pos (hbounds.1 hin)]
    exact .ok hx
  · rw [dif_neg hin, dif_neg (mt hbounds.2 hin)]
    exact .error _

end Field

/-! ## Conditions -/

variable {G : Type} [RandomSource G]

/-- The conditions have one tag and answer alike in every context and scope. -/
structure Condition.TestsAs (c d : Condition G) : Prop where
  tag : c.tag = d.tag
  test : ∀ ctx, c.test ctx = d.test ctx

theorem Condition.testsAs_refl (c : Condition G) : c.TestsAs c := ⟨rfl, fun _ => rfl⟩

theorem PercentRange.contains_congr {r r' : PercentRange}
    (h : r.lower.value = r'.lower.value ∧ r.upper.value = r'.upper.value) :
    r.contains = r'.contains := by
  funext x
  rw [Bool.eq_iff_iff, contains_iff, contains_iff, interval, interval, h.1, h.2]

theorem Condition.matched_of_eq {x y : Except ConfigError (Condition G)} (h : x = y) :
    Fault.Matched Condition.TestsAs x y := by
  rw [h]
  exact .refl Condition.testsAs_refl y

/-- A built-in kind makes the same of a condition in whichever form its numbers are written. -/
theorem Kind.build_respelled {k : Kind G} (hk : k ∈ (Registry.builtin : Registry G).kinds)
    {spec spec' : Document} (h : spec.RespellsCondition spec') :
    Fault.Matched Condition.TestsAs (k.build spec) (k.build spec') := by
  have htexts := fun tag => Field.texts_respelled tag (h.field "values" (by decide))
  have hnatural := fun tag => Field.natural_respelled tag (h.field "variation" (by decide))
  rw [Registry.kinds_builtin] at hk
  simp only [List.mem_cons, List.not_mem_nil, or_false] at hk
  rcases hk with rfl | rfl | rfl | rfl | rfl | rfl | rfl | rfl
  · exact Condition.matched_of_eq rfl
  · exact Condition.matched_of_eq (by simp only [experiment, hnatural])
  · exact Condition.matched_of_eq (by simp only [groups, htexts])
  · exact Condition.matched_of_eq rfl
  · refine (Field.chance_respelled h _).map fun c c' hc => ⟨rfl, fun ctx => ?_⟩
    simp only [Condition.test, Binary64.lt_iff_value_lt, hc]
  · refine (Field.percentRange_respelled h _).map fun r r' hr => ⟨rfl, fun ctx => ?_⟩
    simp only [Condition.test, PercentRange.contains_congr hr]
  · refine (Field.percentRange_respelled h _).map fun r r' hr => ⟨rfl, fun ctx => ?_⟩
    simp only [Condition.test, Condition.inRange, PercentRange.contains_congr hr]
  · exact Condition.matched_of_eq (by simp only [users, htexts])

end Rollout
