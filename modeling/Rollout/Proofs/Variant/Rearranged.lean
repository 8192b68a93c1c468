import Mathlib.Data.List.Perm.Basic
import Rollout.Proofs.Variant.Parsed

/-! # Conditions in another order

Entries that differ in the order of their conditions are checked alike: the one passes if the other
does, and the conditions that are built are the same in the other order. -/
namespace Rollout
set_option autoImplicit false

/-! ## Documents -/

namespace Document

/-- Two entries agree in what decides their activation, up to the order of their conditions. Their
mods may differ. -/
structure SameTests (x y : Document) : Prop where
  id : x.member? "id" = y.member? "id"
  forcible : x.member? "allowUrlOverrides" = y.member? "allowUrlOverrides"
  operator : x.member? "conditionalOperator" = y.member? "conditionalOperator"
  conditions : ∃ ds es, x.member? "conditions" = some (.list ds) ∧
    y.member? "conditions" = some (.list es) ∧ ds.Perm es

/-- Two entries agree but for the order of their conditions. -/
structure Rearranges (x y : Document) : Prop extends SameTests x y where
  mods : x.member? "mods" = y.member? "mods"

theorem conditionSpecs_subset {xs ys : List Document} (h : ∀ y ∈ ys, ∃ x ∈ xs, x.SameTests y) :
    (list ys).conditionSpecs ⊆ (list xs).conditionSpecs := by
  intro spec hspec
  obtain ⟨y, hy, hmem⟩ := List.mem_flatMap.1 hspec
  obtain ⟨x, hx, hsame⟩ := h y hy
  obtain ⟨ds, es, hds, hes, hperm⟩ := hsame.conditions
  rw [hes] at hmem
  exact mem_conditionSpecs hx hds (hperm.mem_iff.2 hmem)

end Document

/-! ## Checked entries -/

namespace Variant

variable {G : Type}

/-- Conditions in another order are built in that order. -/
theorem conditions_perm {r : Registry G} {ds es : List Document} {cs bs : List (Condition G)}
    (hperm : ds.Perm es) (hcs : ds.mapM r.instantiate = .ok cs)
    (hbs : es.mapM r.instantiate = .ok bs) : cs.Perm bs := by
  obtain ⟨as, has, hpermuted⟩ := List.perm_comp_forall₂ hperm (Fault.mapM_eq_ok_iff.1 hbs)
  have heq : ds.mapM r.instantiate = .ok as := Fault.mapM_eq_ok_iff.2 has
  rw [hcs] at heq
  cases heq
  exact hpermuted

theorem exists_parse_of_rearranges {r : Registry G} {x y : Document} {v : Variant G}
    (hv : parse r x = .ok v) (h : x.Rearranges y) : ∃ w, parse r y = .ok w := by
  obtain ⟨ds, hid, ⟨hds, hne⟩, hmods, hcs, hop, hforcible⟩ := parse_eq_ok_iff.1 hv
  obtain ⟨ds', es, hds', hes, hperm⟩ := h.conditions
  cases hds.symm.trans hds'
  obtain ⟨bs, hbs⟩ : ∃ bs, es.mapM r.instantiate = .ok bs := by
    rw [Fault.exists_mapM_eq_ok_iff]
    exact fun d hd => Fault.exists_mapM_eq_ok_iff.1 ⟨_, hcs⟩ d (hperm.mem_iff.2 hd)
  refine ⟨{ v with conditions := bs }, parse_eq_ok_iff.2 ⟨es, ?_, ⟨hes, ?_⟩, ?_, hbs, ?_, ?_⟩⟩
  · rw [← h.id, hid]
  · rintro rfl
    exact hne hperm.eq_nil
  · rw [← h.mods, hmods]
  · rw [← h.operator, hop]
  · rw [← hforcible, isForcible, isForcible, h.forcible]

theorem same_of_sameTests {r : Registry G} {x y : Document} {v w : Variant G}
    (hv : parse r x = .ok v) (hw : parse r y = .ok w) (h : x.SameTests y) :
    v.id = w.id ∧ v.forcible = w.forcible ∧ v.operator = w.operator ∧
      v.conditions.Perm w.conditions := by
  obtain ⟨ds, hidv, ⟨hds, -⟩, -, hcs, hopv, hforciblev⟩ := parse_eq_ok_iff.1 hv
  obtain ⟨es, hidw, ⟨hes, -⟩, -, hbs, hopw, hforciblew⟩ := parse_eq_ok_iff.1 hw
  refine ⟨?_, ?_, ?_, ?_⟩
  · have hids := (hidv.symm.trans h.id).trans hidw
    simpa using hids
  · rw [← hforciblev, ← hforciblew, isForcible, isForcible, h.forcible]
  · rw [h.operator, hopw] at hopv
    exact (Except.ok.inj hopv).symm
  · obtain ⟨ds', es', hds', hes', hperm⟩ := h.conditions
    cases hds.symm.trans hds'
    cases hes.symm.trans hes'
    exact conditions_perm hperm hcs hbs

end Variant

end Rollout
