import Mathlib.Data.List.Forall2
import Mathlib.Logic.Relation
import Rollout.Engine

/-! # What a resolution is made of

One equation for each layer of a resolution: the tests of an entry, the activation of an entry, the
activations of a list of entries and the resolution of a configuration. Each says everything that
the layer can do, its answer, the scope it leaves and its notes. The scopes in which the tests of a
run are made are the ones that `Reaches` names, so what every test keeps is kept by a run. -/
namespace Rollout
set_option autoImplicit false

variable {G : Type} [RandomSource G]

/-! ## Tests of an entry -/

namespace Operator

theorem evaluate_cons_eq_some_iff {op : Operator} {ctx : Context} {c : Condition G}
    {rest : List (Condition G)} {s : Scope G} {r : Run G Bool} :
    op.evaluate ctx (c :: rest) s = some r ↔ ∃ t, c.test ctx s = some t ∧
      ((t.value ≠ op.neutral ∧ r = ⟨t.value, t.scope, t.notes ++ [.tested c.tag t.value]⟩) ∨
        (t.value = op.neutral ∧ ∃ u, op.evaluate ctx rest t.scope = some u ∧
          r = ⟨u.value, u.scope, t.notes ++ [.tested c.tag t.value] ++ u.notes⟩)) := by
  cases h : c.test ctx s with
  | none => simp [evaluate, h]
  | some t =>
    by_cases hn : t.value = op.neutral
    · have heq : op.evaluate ctx (c :: rest) s = (op.evaluate ctx rest t.scope).map
          (Run.noting (t.notes ++ [.tested c.tag t.value])) := by
        simp [evaluate, h, hn, Run.andThen]
      rw [heq, Option.map_eq_some_iff]
      constructor
      · rintro ⟨u, hu, rfl⟩
        exact ⟨t, rfl, .inr ⟨hn, u, hu, rfl⟩⟩
      · rintro ⟨t', ht, ⟨hne, -⟩ | ⟨-, u, hu, rfl⟩⟩
        · cases ht
          exact absurd hn hne
        · cases ht
          exact ⟨u, hu, rfl⟩
    · have heq : op.evaluate ctx (c :: rest) s =
          some ⟨t.value, t.scope, t.notes ++ [.tested c.tag t.value]⟩ := by
        simp [evaluate, h, hn]
      rw [heq, Option.some_inj]
      constructor
      · rintro rfl
        exact ⟨t, rfl, .inl ⟨hn, rfl⟩⟩
      · rintro ⟨t', ht, ⟨-, rfl⟩ | ⟨hy, -⟩⟩
        · cases ht
          rfl
        · cases ht
          exact absurd hy hn

end Operator

/-! ## Activations -/

namespace Variant

/-- The note of an activation. -/
def activeNotes (v : Variant G) (a : Activation) : List Note :=
  if a.isActive then [.active v.id a] else []

omit [RandomSource G] in
theorem isForced_eq_true_iff {requested : List String} {v : Variant G} :
    v.isForced requested = true ↔ v.forcible = true ∧ v.id ∈ requested := by
  simp [isForced]

theorem activation_of_forced {requested : List String} {v : Variant G}
    (h : v.isForced requested = true) (ctx : Context) (s : Scope G) :
    v.activation requested ctx s = some ⟨.forced, s, []⟩ := by
  rw [activation, if_pos h]
  rfl

theorem activation_eq_map {requested : List String} {v : Variant G}
    (h : v.isForced requested = false) (ctx : Context) (s : Scope G) :
    v.activation requested ctx s = (v.operator.evaluate ctx v.conditions s).map
      (Run.map fun holds => if holds then .conditions else .inactive) := by
  have hn : ¬v.isForced requested = true := by simp [h]
  rw [activation, if_neg hn]

theorem activation_eq_some_iff {requested : List String} {v : Variant G}
    (h : v.isForced requested = false) {ctx : Context} {s : Scope G} {r : Run G Activation} :
    v.activation requested ctx s = some r ↔ ∃ u, v.operator.evaluate ctx v.conditions s = some u ∧
      r = ⟨if u.value then .conditions else .inactive, u.scope, u.notes⟩ := by
  rw [activation_eq_map h, Option.map_eq_some_iff]
  constructor
  · rintro ⟨u, hu, rfl⟩
    exact ⟨u, hu, rfl⟩
  · rintro ⟨u, hu, rfl⟩
    exact ⟨u, hu, rfl⟩

/-- An entry that may be and is requested is forced on, and any other is as its conditions say. -/
theorem activation_cases {requested : List String} {ctx : Context}
    {v : Variant G} {s : Scope G} {t : Run G Activation}
    (h : v.activation requested ctx s = some t) :
    (v.forcible = true ∧ v.id ∈ requested → t.value = .forced) ∧
    (¬(v.forcible = true ∧ v.id ∈ requested) → t.value = .conditions ∨ t.value = .inactive) := by
  rw [← isForced_eq_true_iff]
  cases hf : v.isForced requested with
  | true =>
    rw [activation_of_forced hf] at h
    cases h
    simp
  | false =>
    obtain ⟨u, -, rfl⟩ := (activation_eq_some_iff hf).1 h
    cases hu : u.value <;> simp

theorem activations_cons_eq_some_iff {requested : List String} {ctx : Context} {v : Variant G}
    {rest : List (Variant G)} {s : Scope G} {r : Run G (List Activation)} :
    activations requested ctx (v :: rest) s = some r ↔ ∃ t u,
      v.activation requested ctx s = some t ∧ activations requested ctx rest t.scope = some u ∧
      r = ⟨t.value :: u.value, u.scope, t.notes ++ v.activeNotes t.value ++ u.notes⟩ := by
  cases h : v.activation requested ctx s with
  | none => simp [activations, h]
  | some t =>
    have heq : activations requested ctx (v :: rest) s = (activations requested ctx rest t.scope).map
        fun u => ⟨t.value :: u.value, u.scope, t.notes ++ v.activeNotes t.value ++ u.notes⟩ := by
      cases ha : t.value.isActive <;>
        simp only [activations, h, ha, Run.andThen, activeNotes, Option.map_map] <;>
        simp [Function.comp_def, Run.map, Run.noting]
    rw [heq, Option.map_eq_some_iff]
    constructor
    · rintro ⟨u, hu, rfl⟩
      exact ⟨t, u, rfl, hu, rfl⟩
    · rintro ⟨t', u, ht, hu, rfl⟩
      cases ht
      exact ⟨u, hu, rfl⟩

end Variant

/-! ## Resolutions -/

namespace Engine

/-- The resolution that activations of checked entries make. -/
def resolution (e : Engine G) (ctx : Context) (vs : List (Variant G)) (as : List Activation) :
    Resolution :=
  ⟨Variant.mergedMods vs as, List.zipWith Variant.outcome vs as, e.requested ctx⟩

/-- The notes of a resolution around those of its activations. -/
def allNotes (e : Engine G) (ctx : Context) (vs : List (Variant G))
    (u : Run G (List Activation)) : List Note :=
  (if e.requested ctx = [] then [] else [.requested (e.requested ctx)]) ++ u.notes ++
    [.resolved (u.value.filter Activation.isActive).length
      (Variant.mergedMods vs u.value).entries.length]

theorem resolveIn_of_error {e : Engine G} {config : Document} {fault : ConfigError}
    (h : e.parse config = .error fault) (ctx : Context) (s : Scope G) :
    e.resolveIn config ctx s = some ⟨.error fault, s, []⟩ := by
  simp only [resolveIn, h]

theorem resolveIn_eq_map {e : Engine G} {config : Document} {vs : List (Variant G)}
    (h : e.parse config = .ok vs) (ctx : Context) (s : Scope G) :
    e.resolveIn config ctx s =
      (Variant.activations (e.requested ctx) ctx vs (s.inherit e.service)).map
        fun u => ⟨.ok (e.resolution ctx vs u.value), u.scope, e.allNotes ctx vs u⟩ := by
  simp only [resolveIn, h, resolveParsed, Option.map_map]
  rfl

theorem resolveIn_eq_some_iff {e : Engine G} {config : Document} {vs : List (Variant G)}
    (h : e.parse config = .ok vs) {ctx : Context} {s : Scope G}
    {run : Run G (Except ConfigError Resolution)} :
    e.resolveIn config ctx s = some run ↔
      ∃ u, Variant.activations (e.requested ctx) ctx vs (s.inherit e.service) = some u ∧
        run = ⟨.ok (e.resolution ctx vs u.value), u.scope, e.allNotes ctx vs u⟩ := by
  rw [resolveIn_eq_map h, Option.map_eq_some_iff]
  constructor
  · rintro ⟨u, hu, rfl⟩
    exact ⟨u, hu, rfl⟩
  · rintro ⟨u, hu, rfl⟩
    exact ⟨u, hu, rfl⟩

/-- A resolution answers with the fault of its configuration and does nothing, or it makes the
activations of the checked entries. -/
theorem resolveIn_cases {e : Engine G} {config : Document} {ctx : Context} {s : Scope G}
    {run : Run G (Except ConfigError Resolution)} (h : e.resolveIn config ctx s = some run) :
    (∃ fault, e.parse config = .error fault ∧ run = ⟨.error fault, s, []⟩) ∨
    (∃ vs u, e.parse config = .ok vs ∧
      Variant.activations (e.requested ctx) ctx vs (s.inherit e.service) = some u ∧
      run = ⟨.ok (e.resolution ctx vs u.value), u.scope, e.allNotes ctx vs u⟩) := by
  cases hparse : e.parse config with
  | error fault =>
    rw [resolveIn_of_error hparse] at h
    exact .inl ⟨fault, rfl, (Option.some_inj.1 h).symm⟩
  | ok vs =>
    obtain ⟨u, hu, hrun⟩ := (resolveIn_eq_some_iff hparse).1 h
    exact .inr ⟨vs, u, rfl, hu, hrun⟩

end Engine

/-! ## Scopes of a run -/

/-- Testing one of the conditions leads from one scope to the other. -/
def Leads (ctx : Context) (cs : List (Condition G)) (s t : Scope G) : Prop :=
  ∃ c ∈ cs, ∃ r, c.test ctx s = some r ∧ r.scope = t

/-- Some tests of the conditions lead from one scope to the other. -/
def Reaches (ctx : Context) (cs : List (Condition G)) : Scope G → Scope G → Prop :=
  Relation.ReflTransGen (Leads ctx cs)

theorem Reaches.mono {ctx : Context} {cs ds : List (Condition G)} (h : cs ⊆ ds) {s t : Scope G}
    (hr : Reaches ctx cs s t) : Reaches ctx ds s t :=
  Relation.ReflTransGen.mono (fun _ _ ⟨c, hc, hl⟩ => ⟨c, h hc, hl⟩) _ _ hr

theorem Reaches.keeps {ctx : Context} {cs : List (Condition G)} {P : Scope G → Prop}
    (hstep : ∀ c ∈ cs, ∀ s r, c.test ctx s = some r → P s → P r.scope) {s t : Scope G}
    (h : Reaches ctx cs s t) (hs : P s) : P t := by
  induction h with
  | refl => exact hs
  | tail _ hl ih =>
    obtain ⟨c, hc, r, hr, rfl⟩ := hl
    exact hstep c hc _ r hr ih

theorem Operator.evaluate_reaches {op : Operator} {ctx : Context} {cs : List (Condition G)}
    {s : Scope G} {r : Run G Bool} (h : op.evaluate ctx cs s = some r) :
    Reaches ctx cs s r.scope := by
  induction cs generalizing s r with
  | nil =>
    cases h
    exact .refl
  | cons c rest ih =>
    obtain ⟨t, ht, hcase⟩ := evaluate_cons_eq_some_iff.1 h
    have hfirst : Leads ctx (c :: rest) s t.scope := ⟨c, List.mem_cons_self, t, ht, rfl⟩
    rcases hcase with ⟨-, rfl⟩ | ⟨-, u, hu, rfl⟩
    · exact .single hfirst
    · exact .head hfirst ((ih hu).mono (List.subset_cons_self c rest))

theorem Variant.activation_reaches {requested : List String} {ctx : Context} {v : Variant G}
    {s : Scope G} {r : Run G Activation} (h : v.activation requested ctx s = some r) :
    Reaches ctx v.conditions s r.scope := by
  cases hf : v.isForced requested with
  | true =>
    rw [activation_of_forced hf] at h
    cases h
    exact .refl
  | false =>
    obtain ⟨u, hu, rfl⟩ := (activation_eq_some_iff hf).1 h
    exact Operator.evaluate_reaches hu

/-- Each activation of a run is the one of its entry in a scope that the run passes through. -/
theorem Variant.activations_forall₂ {requested : List String} {ctx : Context}
    {vs : List (Variant G)} {s : Scope G} {u : Run G (List Activation)}
    (h : activations requested ctx vs s = some u) :
    List.Forall₂ (fun v a => ∃ s' t, Reaches ctx (vs.flatMap Variant.conditions) s s' ∧
      v.activation requested ctx s' = some t ∧ t.value = a ∧
      Reaches ctx (vs.flatMap Variant.conditions) t.scope u.scope) vs u.value ∧
    Reaches ctx (vs.flatMap Variant.conditions) s u.scope := by
  induction vs generalizing s u with
  | nil =>
    cases h
    exact ⟨.nil, .refl⟩
  | cons v rest ih =>
    obtain ⟨t, w, ht, hw, rfl⟩ := activations_cons_eq_some_iff.1 h
    obtain ⟨hall, hend⟩ := ih hw
    have hleft : v.conditions ⊆ (v :: rest).flatMap Variant.conditions := by
      rw [List.flatMap_cons]
      exact List.subset_append_left _ _
    have hright : rest.flatMap Variant.conditions ⊆ (v :: rest).flatMap Variant.conditions := by
      rw [List.flatMap_cons]
      exact List.subset_append_right _ _
    have hfirst := (activation_reaches ht).mono hleft
    have hlast := hend.mono hright
    refine ⟨.cons ⟨s, t, .refl, ht, rfl, hlast⟩ (hall.imp ?_), hfirst.trans hlast⟩
    rintro v' a ⟨s', t', hs', ht', ha, hu⟩
    exact ⟨s', t', hfirst.trans (hs'.mono hright), ht', ha, hu.mono hright⟩

/-! ## Outcomes -/

omit [RandomSource G] in
theorem Variant.activations_of_outcomes {P : Variant G → Activation → Prop} {vs : List (Variant G)}
    {as : List Activation} (h : List.Forall₂ P vs as) :
    (List.zipWith outcome vs as).map Outcome.activation = as := by
  induction h with
  | nil => rfl
  | cons _ _ ih => rw [List.zipWith_cons_cons, List.map_cons, ih]; rfl

/-! ## Answers -/

theorem Operator.evaluate_isSome {op : Operator} {ctx : Context} {cs : List (Condition G)}
    {s : Scope G} (h : ∀ c ∈ cs, ∀ s', Reaches ctx cs s s' → (c.test ctx s').isSome) :
    (op.evaluate ctx cs s).isSome := by
  induction cs generalizing s with
  | nil => rfl
  | cons c rest ih =>
    obtain ⟨t, ht⟩ := Option.isSome_iff_exists.1 (h c List.mem_cons_self s .refl)
    rw [Option.isSome_iff_exists]
    by_cases hn : t.value = op.neutral
    · have hfirst : Leads ctx (c :: rest) s t.scope := ⟨c, List.mem_cons_self, t, ht, rfl⟩
      have hrest : (op.evaluate ctx rest t.scope).isSome := by
        refine ih fun d hd s' hs' => h d (List.mem_cons_of_mem c hd) s' ?_
        exact .head hfirst (hs'.mono (List.subset_cons_self c rest))
      obtain ⟨u, hu⟩ := Option.isSome_iff_exists.1 hrest
      exact ⟨_, evaluate_cons_eq_some_iff.2 ⟨t, ht, .inr ⟨hn, u, hu, rfl⟩⟩⟩
    · exact ⟨_, evaluate_cons_eq_some_iff.2 ⟨t, ht, .inl ⟨hn, rfl⟩⟩⟩

theorem Variant.activation_isSome {requested : List String} {ctx : Context} {v : Variant G}
    {s : Scope G}
    (h : ∀ c ∈ v.conditions, ∀ s', Reaches ctx v.conditions s s' → (c.test ctx s').isSome) :
    (v.activation requested ctx s).isSome := by
  cases hf : v.isForced requested with
  | true =>
    rw [activation_of_forced hf]
    rfl
  | false =>
    have hevaluate : (v.operator.evaluate ctx v.conditions s).isSome := Operator.evaluate_isSome h
    obtain ⟨u, hu⟩ := Option.isSome_iff_exists.1 hevaluate
    rw [Option.isSome_iff_exists]
    exact ⟨_, (activation_eq_some_iff hf).2 ⟨u, hu, rfl⟩⟩

theorem Variant.activations_isSome {requested : List String} {ctx : Context}
    {vs : List (Variant G)} {s : Scope G}
    (h : ∀ c ∈ vs.flatMap Variant.conditions, ∀ s',
      Reaches ctx (vs.flatMap Variant.conditions) s s' → (c.test ctx s').isSome) :
    (activations requested ctx vs s).isSome := by
  induction vs generalizing s with
  | nil => rfl
  | cons v rest ih =>
    rw [List.flatMap_cons] at h
    have hleft := List.subset_append_left v.conditions (rest.flatMap Variant.conditions)
    have hright := List.subset_append_right v.conditions (rest.flatMap Variant.conditions)
    have hfirst : (v.activation requested ctx s).isSome :=
      activation_isSome fun c hc s' hs' => h c (hleft hc) s' (hs'.mono hleft)
    obtain ⟨t, ht⟩ := Option.isSome_iff_exists.1 hfirst
    have hrest : (activations requested ctx rest t.scope).isSome := by
      refine ih fun c hc s' hs' => h c (hright hc) s' ?_
      exact ((activation_reaches ht).mono hleft).trans (hs'.mono hright)
    obtain ⟨u, hu⟩ := Option.isSome_iff_exists.1 hrest
    rw [Option.isSome_iff_exists]
    exact ⟨_, activations_cons_eq_some_iff.2 ⟨t, u, ht, hu, rfl⟩⟩

theorem Engine.resolveIn_isSome {e : Engine G} {config : Document} {vs : List (Variant G)}
    (h : e.parse config = .ok vs) {ctx : Context} {s : Scope G}
    (htests : ∀ c ∈ vs.flatMap Variant.conditions, ∀ s',
      Reaches ctx (vs.flatMap Variant.conditions) (s.inherit e.service) s' →
        (c.test ctx s').isSome) : (e.resolveIn config ctx s).isSome := by
  rw [resolveIn_eq_map h, Option.isSome_map]
  exact Variant.activations_isSome htests

end Rollout
