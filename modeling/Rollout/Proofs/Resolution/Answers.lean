import Rollout.Proofs.Resolution.Run

/-! # Answers known beforehand

Where a property of scopes settles the answer of every condition and is kept by every test, a run
comes down to combining the answers: stopping early leaves out tests, but never one that would have
changed the outcome. -/
namespace Rollout
set_option autoImplicit false

variable {G : Type}

/-! ## All the answers at once -/

/-- The outcome of all the answers at once. -/
def Operator.combine : Operator → List Bool → Bool
  | all, answers => answers.all id
  | any, answers => answers.any id

theorem Operator.combine_nil (op : Operator) : op.combine [] = op.neutral := by
  cases op <;> rfl

theorem Operator.combine_cons_neutral (op : Operator) (answers : List Bool) :
    op.combine (op.neutral :: answers) = op.combine answers := by
  cases op <;> rfl

/-- One answer against the neutral one settles the outcome. -/
theorem Operator.combine_cons_of_ne {op : Operator} {answer : Bool} (h : answer ≠ op.neutral)
    (answers : List Bool) : op.combine (answer :: answers) = answer := by
  cases op with
  | all =>
    have hfalse : answer = false := Bool.eq_false_iff.2 h
    rw [hfalse]
    rfl
  | any =>
    have htrue : answer = true := Bool.ne_false_iff.1 h
    rw [htrue]
    rfl

theorem Operator.combine_perm (op : Operator) {answers answers' : List Bool}
    (h : answers.Perm answers') : op.combine answers = op.combine answers' := by
  cases op with
  | all => exact h.all_eq
  | any => exact h.any_eq

/-- The activation of an entry by the answers that its conditions would give. -/
def Variant.activationBy (requested : List String) (answer : Condition G → Bool) (v : Variant G) :
    Activation :=
  if v.isForced requested then .forced
  else if v.operator.combine (v.conditions.map answer) then .conditions
  else .inactive

/-! ## Runs -/

section Runs

variable [RandomSource G] {ctx : Context} {P : Scope G → Prop} {answer : Condition G → Bool}

/-- Wherever `P` holds the condition gives its answer, and `P` holds on. -/
def Condition.Answers (ctx : Context) (P : Scope G → Prop) (c : Condition G) (b : Bool) : Prop :=
  ∀ s, P s → ∃ r, c.test ctx s = some r ∧ r.value = b ∧ P r.scope

theorem Operator.evaluate_of_answers (op : Operator) {cs : List (Condition G)}
    (h : ∀ c ∈ cs, c.Answers ctx P (answer c)) {s : Scope G} (hs : P s) :
    ∃ r, op.evaluate ctx cs s = some r ∧ r.value = op.combine (cs.map answer) ∧ P r.scope := by
  induction cs generalizing s with
  | nil => exact ⟨_, rfl, (combine_nil op).symm, hs⟩
  | cons c rest ih =>
    obtain ⟨t, ht, hvalue, hscope⟩ := h c List.mem_cons_self s hs
    rw [List.map_cons, ← hvalue]
    by_cases hn : t.value = op.neutral
    · obtain ⟨u, hu, hrest, hlast⟩ := ih (fun d hd => h d (List.mem_cons_of_mem c hd)) hscope
      refine ⟨_, evaluate_cons_eq_some_iff.2 ⟨t, ht, .inr ⟨hn, u, hu, rfl⟩⟩, ?_, hlast⟩
      rw [hn, combine_cons_neutral]
      exact hrest
    · refine ⟨_, evaluate_cons_eq_some_iff.2 ⟨t, ht, .inl ⟨hn, rfl⟩⟩, ?_, hscope⟩
      exact (combine_cons_of_ne hn _).symm

theorem Variant.activation_of_answers (requested : List String) {v : Variant G}
    (h : ∀ c ∈ v.conditions, c.Answers ctx P (answer c)) {s : Scope G} (hs : P s) :
    ∃ t, v.activation requested ctx s = some t ∧ t.value = v.activationBy requested answer ∧
      P t.scope := by
  cases hf : v.isForced requested with
  | true => exact ⟨_, activation_of_forced hf ctx s, by simp [activationBy, hf], hs⟩
  | false =>
    obtain ⟨u, hu, hvalue, hscope⟩ := v.operator.evaluate_of_answers h hs
    refine ⟨_, (activation_eq_some_iff hf).2 ⟨u, hu, rfl⟩, ?_, hscope⟩
    simp [activationBy, hf, hvalue]

theorem Variant.activations_of_answers (requested : List String) {vs : List (Variant G)}
    (h : ∀ c ∈ vs.flatMap Variant.conditions, c.Answers ctx P (answer c)) {s : Scope G}
    (hs : P s) :
    ∃ u, activations requested ctx vs s = some u ∧
      u.value = vs.map (activationBy requested answer) ∧ P u.scope := by
  induction vs generalizing s with
  | nil => exact ⟨_, rfl, rfl, hs⟩
  | cons v rest ih =>
    rw [List.flatMap_cons] at h
    obtain ⟨t, ht, hvalue, hscope⟩ :=
      activation_of_answers requested (fun c hc => h c (List.mem_append_left _ hc)) hs
    obtain ⟨u, hu, hrest, hlast⟩ := ih (fun c hc => h c (List.mem_append_right _ hc)) hscope
    exact ⟨_, activations_cons_eq_some_iff.2 ⟨t, u, ht, hu, rfl⟩, by simp [hvalue, hrest], hlast⟩

end Runs

end Rollout
