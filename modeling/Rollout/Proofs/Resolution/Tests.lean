import Rollout.Proofs.Resolution.Run

/-! # The tests of a run

The tests that a run makes, each as the condition and its answer, in the order in which they are
made: those of an entry stop at the first answer that settles the outcome, and a forced entry has
none. One after the other they lead from the scope of the start to the one that the run leaves. -/
namespace Rollout
set_option autoImplicit false

variable {G : Type} [RandomSource G]

/-! ## Lists of tests -/

def Operator.tests (op : Operator) (ctx : Context) :
    List (Condition G) → Scope G → List (Condition G × Bool)
  | [], _ => []
  | c :: rest, s =>
    match c.test ctx s with
    | none => []
    | some r => (c, r.value) :: if r.value = op.neutral then tests op ctx rest r.scope else []

namespace Variant

def tests (requested : List String) (ctx : Context) (v : Variant G) (s : Scope G) :
    List (Condition G × Bool) :=
  if v.isForced requested then [] else v.operator.tests ctx v.conditions s

/-- The tests of entries, those of each in the scope that the one before left. -/
def allTests (requested : List String) (ctx : Context) :
    List (Variant G) → Scope G → List (Condition G × Bool)
  | [], _ => []
  | v :: rest, s => v.tests requested ctx s ++
    match v.activation requested ctx s with
    | none => []
    | some r => allTests requested ctx rest r.scope

theorem allTests_cons {requested : List String} {ctx : Context} {v : Variant G} {s : Scope G}
    {t : Run G Activation} (h : v.activation requested ctx s = some t) (rest : List (Variant G)) :
    allTests requested ctx (v :: rest) s =
      v.tests requested ctx s ++ allTests requested ctx rest t.scope := by
  rw [allTests, h]

theorem tests_of_forced {requested : List String} {v : Variant G}
    (h : v.isForced requested = true) (ctx : Context) (s : Scope G) :
    v.tests requested ctx s = [] := if_pos h

end Variant

/-- The tests that resolving a configuration makes. -/
def Engine.tests (e : Engine G) (config : Document) (ctx : Context) (s : Scope G) :
    List (Condition G × Bool) :=
  match e.parse config with
  | .error _ => []
  | .ok vs => Variant.allTests (e.requested ctx) ctx vs (s.inherit e.service)

theorem Engine.tests_of_parse {e : Engine G} {config : Document} {vs : List (Variant G)}
    (h : e.parse config = .ok vs) (ctx : Context) (s : Scope G) :
    e.tests config ctx s =
      Variant.allTests (e.requested ctx) ctx vs (s.inherit e.service) := by
  simp only [tests, h]

/-! ## From scope to scope -/

/-- Made one after the other the tests give their answers and lead from one scope to the other. -/
inductive Tested (ctx : Context) : List (Condition G × Bool) → Scope G → Scope G → Prop
  | nil (s : Scope G) : Tested ctx [] s s
  | cons {c : Condition G} {s t : Scope G} {r : Run G Bool} {tests : List (Condition G × Bool)}
      (first : c.test ctx s = some r) (rest : Tested ctx tests r.scope t) :
      Tested ctx ((c, r.value) :: tests) s t

theorem Tested.append {ctx : Context} {xs ys : List (Condition G × Bool)} {s t u : Scope G}
    (hx : Tested ctx xs s t) (hy : Tested ctx ys t u) : Tested ctx (xs ++ ys) s u := by
  induction hx with
  | nil s => exact hy
  | cons first _ ih => exact .cons first (ih hy)

theorem Tested.of_append {ctx : Context} {xs ys : List (Condition G × Bool)} {s t : Scope G}
    (h : Tested ctx (xs ++ ys) s t) : ∃ u, Tested ctx xs s u ∧ Tested ctx ys u t := by
  induction xs generalizing s with
  | nil => exact ⟨s, .nil s, h⟩
  | cons x rest ih =>
    cases h with
    | cons first hrest =>
      obtain ⟨u, hxs, hys⟩ := ih hrest
      exact ⟨u, .cons first hxs, hys⟩

theorem Operator.evaluate_tested {op : Operator} {ctx : Context} {cs : List (Condition G)}
    {s : Scope G} {r : Run G Bool} (h : op.evaluate ctx cs s = some r) :
    Tested ctx (op.tests ctx cs s) s r.scope := by
  induction cs generalizing s r with
  | nil =>
    cases h
    exact .nil s
  | cons c rest ih =>
    obtain ⟨t, ht, ⟨hn, rfl⟩ | ⟨hn, u, hu, rfl⟩⟩ := evaluate_cons_eq_some_iff.1 h
    · simp only [tests, ht, if_neg hn]
      exact .cons ht (.nil t.scope)
    · simp only [tests, ht, if_pos hn]
      exact .cons ht (ih hu)

theorem Variant.activation_tested {requested : List String} {ctx : Context} {v : Variant G}
    {s : Scope G} {t : Run G Activation} (h : v.activation requested ctx s = some t) :
    Tested ctx (v.tests requested ctx s) s t.scope := by
  cases hf : v.isForced requested with
  | true =>
    rw [activation_of_forced hf] at h
    cases h
    rw [tests_of_forced hf]
    exact .nil s
  | false =>
    obtain ⟨u, hu, rfl⟩ := (activation_eq_some_iff hf).1 h
    rw [tests, hf]
    exact Operator.evaluate_tested hu

theorem Variant.activations_tested {requested : List String} {ctx : Context}
    {vs : List (Variant G)} {s : Scope G} {u : Run G (List Activation)}
    (h : activations requested ctx vs s = some u) :
    Tested ctx (allTests requested ctx vs s) s u.scope := by
  induction vs generalizing s u with
  | nil =>
    cases h
    exact .nil s
  | cons v rest ih =>
    obtain ⟨t, w, ht, hw, rfl⟩ := activations_cons_eq_some_iff.1 h
    have hrest := ih hw
    rw [allTests_cons ht]
    exact (activation_tested ht).append hrest

/-! ## Runs that do not return

The tests of a run that waits for the shared bucket are those before it began to wait. -/

theorem Operator.exists_tested (op : Operator) (ctx : Context) (cs : List (Condition G))
    (s : Scope G) : ∃ t, Tested ctx (op.tests ctx cs s) s t := by
  induction cs generalizing s with
  | nil => exact ⟨s, .nil s⟩
  | cons c rest ih =>
    cases hc : c.test ctx s with
    | none =>
      simp only [tests, hc]
      exact ⟨s, .nil s⟩
    | some r =>
      by_cases hn : r.value = op.neutral
      · obtain ⟨t, ht⟩ := ih r.scope
        simp only [tests, hc, if_pos hn]
        exact ⟨t, .cons hc ht⟩
      · simp only [tests, hc, if_neg hn]
        exact ⟨r.scope, .cons hc (.nil r.scope)⟩

theorem Variant.exists_tested (requested : List String) (ctx : Context) (vs : List (Variant G))
    (s : Scope G) : ∃ t, Tested ctx (allTests requested ctx vs s) s t := by
  induction vs generalizing s with
  | nil => exact ⟨s, .nil s⟩
  | cons v rest ih =>
    cases hv : v.activation requested ctx s with
    | none =>
      simp only [allTests, hv, List.append_nil]
      cases hf : v.isForced requested with
      | true =>
        rw [tests_of_forced hf]
        exact ⟨s, .nil s⟩
      | false =>
        rw [tests, hf]
        exact v.operator.exists_tested ctx v.conditions s
    | some r =>
      obtain ⟨t, ht⟩ := ih r.scope
      rw [allTests_cons hv]
      exact ⟨t, (activation_tested hv).append ht⟩

theorem Engine.exists_tested (e : Engine G) (config : Document) (ctx : Context) (s : Scope G) :
    ∃ t, Tested ctx (e.tests config ctx s) (s.inherit e.service) t := by
  unfold tests
  split
  · exact ⟨s.inherit e.service, .nil _⟩
  · exact Variant.exists_tested _ ctx _ _

/-! ## Conditions of tests -/

theorem Operator.mem_tests {op : Operator} {ctx : Context} {cs : List (Condition G)} {s : Scope G}
    {test : Condition G × Bool} (h : test ∈ op.tests ctx cs s) : test.1 ∈ cs := by
  induction cs generalizing s with
  | nil => cases h
  | cons c rest ih =>
    cases hc : c.test ctx s with
    | none => simp [tests, hc] at h
    | some r =>
      simp only [tests, hc] at h
      rcases List.mem_cons.1 h with rfl | hrest
      · exact List.mem_cons_self
      · split at hrest
        · exact List.mem_cons_of_mem _ (ih hrest)
        · cases hrest

theorem Variant.mem_allTests {requested : List String} {ctx : Context} {vs : List (Variant G)}
    {s : Scope G} {test : Condition G × Bool} (h : test ∈ allTests requested ctx vs s) :
    test.1 ∈ vs.flatMap conditions := by
  induction vs generalizing s with
  | nil => cases h
  | cons v rest ih =>
    rw [List.flatMap_cons, List.mem_append]
    rw [allTests, List.mem_append] at h
    rcases h with hfirst | hrest
    · rw [tests] at hfirst
      split at hfirst
      · cases hfirst
      · exact .inl (Operator.mem_tests hfirst)
    · cases hv : v.activation requested ctx s with
      | none =>
        rw [hv] at hrest
        cases hrest
      | some r =>
        rw [hv] at hrest
        exact .inr (ih hrest)

end Rollout
