import Rollout.Proofs.Condition.Percent
import Rollout.Proofs.Resolution.Answers
import Rollout.Proofs.Resolution.Tests

/-! # Stopping early

An operator stops at the first answer that settles the outcome. Had it gone on to the last condition
it would have come to the same outcome, and what it does up to there is what testing these conditions
and no others does. Negating the answers turns one operator into the other. -/
namespace Rollout
set_option autoImplicit false

variable {G : Type}

/-! ## Outcomes -/

namespace Operator

/-- What an operator asks of all the answers: all of them, or some of them, are true. -/
def Holds : Operator → List Bool → Prop
  | all, answers => ∀ b ∈ answers, b = true
  | any, answers => ∃ b ∈ answers, b = true

theorem combine_eq_true_iff (op : Operator) (answers : List Bool) :
    op.combine answers = true ↔ op.Holds answers := by
  cases op with
  | all => exact List.all_eq_true
  | any => exact List.any_eq_true

/-- How many conditions are tested: those up to the first answer that settles the outcome, and all of
them if there is none. -/
def needed (op : Operator) (answers : List Bool) : ℕ := answers.findIdx (· != op.neutral) + 1

theorem needed_cons_neutral (op : Operator) (answers : List Bool) :
    op.needed (op.neutral :: answers) = op.needed answers + 1 := by
  simp [needed, List.findIdx_cons]

theorem needed_cons_of_ne {op : Operator} {answer : Bool} (h : answer ≠ op.neutral)
    (answers : List Bool) : op.needed (answer :: answers) = 1 := by
  have hne : (answer != op.neutral) = true := bne_iff_ne.2 h
  rw [needed, List.findIdx_cons, hne]
  rfl

def dual : Operator → Operator
  | all => any
  | any => all

theorem neutral_dual (op : Operator) : op.dual.neutral = !op.neutral := by
  cases op <;> rfl

end Operator

/-! ## Conditions -/

variable [RandomSource G]

namespace Condition

/-- Tests conditions in order, each in the scope that the one before left, to the last of them. -/
def testAll (ctx : Context) : List (Condition G) → Trial G (List Bool)
  | [] => Trial.pure []
  | c :: rest => fun s =>
    match c.test ctx s with
    | none => none
    | some t => (testAll ctx rest t.scope).map fun u =>
      ⟨t.value :: u.value, u.scope, t.notes ++ [.tested c.tag t.value] ++ u.notes⟩

theorem testAll_cons_eq_some_iff {ctx : Context} {c : Condition G} {rest : List (Condition G)}
    {s : Scope G} {r : Run G (List Bool)} :
    testAll ctx (c :: rest) s = some r ↔ ∃ t u, c.test ctx s = some t ∧
      testAll ctx rest t.scope = some u ∧
      r = ⟨t.value :: u.value, u.scope, t.notes ++ [.tested c.tag t.value] ++ u.notes⟩ := by
  cases h : c.test ctx s with
  | none => simp [testAll, h]
  | some t => simp [testAll, h, eq_comm]

/-- The condition that holds where another does not. -/
def negated (c : Condition G) : Condition G :=
  custom c.tag fun ctx s => (c.test ctx s).map (Run.map not)

theorem test_negated (c : Condition G) (ctx : Context) (s : Scope G) :
    c.negated.test ctx s = (c.test ctx s).map fun t =>
      ⟨!t.value, t.scope, t.notes ++ [.answered c.tag (!t.value)]⟩ := by
  simp only [negated, test, Option.map_map]
  rfl

end Condition

/-! ## Evaluation -/

namespace Operator

/-- Where testing everything comes to an end, stopping early comes to the same outcome, and it does
what testing the conditions that are needed does. -/
theorem evaluate_of_testAll {op : Operator} {ctx : Context} {cs : List (Condition G)} {s : Scope G}
    {all : Run G (List Bool)} (h : Condition.testAll ctx cs s = some all) :
    ∃ p, Condition.testAll ctx (cs.take (op.needed all.value)) s = some p ∧
      p.value = all.value.take (op.needed all.value) ∧
      op.evaluate ctx cs s = some ⟨op.combine all.value, p.scope, p.notes⟩ := by
  induction cs generalizing s all with
  | nil =>
    cases h
    refine ⟨_, rfl, rfl, ?_⟩
    rw [combine_nil]
    rfl
  | cons c rest ih =>
    obtain ⟨t, u, ht, hu, rfl⟩ := Condition.testAll_cons_eq_some_iff.1 h
    by_cases hn : t.value = op.neutral
    · obtain ⟨p, hp, hvalue, hrun⟩ := ih hu
      have hneeded : op.needed (t.value :: u.value) = op.needed u.value + 1 := by
        rw [hn, needed_cons_neutral]
      have hcombine : op.combine (t.value :: u.value) = op.combine u.value := by
        rw [hn, combine_cons_neutral]
      simp only [hneeded, hcombine, List.take_succ_cons, ← hvalue]
      exact ⟨_, Condition.testAll_cons_eq_some_iff.2 ⟨t, p, ht, hp, rfl⟩, rfl,
        evaluate_cons_eq_some_iff.2 ⟨t, ht, .inr ⟨hn, _, hrun, rfl⟩⟩⟩
    · -- The first condition settles the outcome, whatever the answers of the others are.
      simp only [needed_cons_of_ne hn, combine_cons_of_ne hn, List.take_succ_cons, List.take_zero]
      exact ⟨_, Condition.testAll_cons_eq_some_iff.2 ⟨t, ⟨[], t.scope, []⟩, ht, rfl, rfl⟩, rfl,
        evaluate_cons_eq_some_iff.2 ⟨t, ht, .inl ⟨hn, by rw [List.append_nil]⟩⟩⟩

theorem tests_of_testAll {op : Operator} {ctx : Context} {cs : List (Condition G)} {s : Scope G}
    {all : Run G (List Bool)} (h : Condition.testAll ctx cs s = some all) :
    op.tests ctx cs s = (cs.zip all.value).take (op.needed all.value) := by
  induction cs generalizing s all with
  | nil => rfl
  | cons c rest ih =>
    obtain ⟨t, u, ht, hu, rfl⟩ := Condition.testAll_cons_eq_some_iff.1 h
    by_cases hn : t.value = op.neutral
    · have hneeded : op.needed (t.value :: u.value) = op.needed u.value + 1 := by
        rw [hn, needed_cons_neutral]
      simp only [tests, ht, if_pos hn, hneeded, List.zip_cons_cons, List.take_succ_cons, ih hu]
    · simp only [tests, ht, if_neg hn, needed_cons_of_ne hn, List.zip_cons_cons,
        List.take_succ_cons, List.take_zero]

/-- Negated conditions are tested as the conditions are, to the opposite outcome of the other
operator. -/
theorem evaluate_negated (op : Operator) (ctx : Context) (cs : List (Condition G)) (s : Scope G) :
    (op.dual.evaluate ctx (cs.map Condition.negated) s).map (fun r => (!r.value, r.scope)) =
      (op.evaluate ctx cs s).map fun r => (r.value, r.scope) := by
  induction cs generalizing s with
  | nil => simp [evaluate, Trial.pure, neutral_dual]
  | cons c rest ih =>
    have hfirst := c.test_negated ctx s
    cases ht : c.test ctx s with
    | none =>
      rw [ht, Option.map_none] at hfirst
      simp [evaluate, ht, hfirst]
    | some t =>
      rw [ht, Option.map_some] at hfirst
      by_cases hn : t.value = op.neutral
      · simpa [evaluate, ht, hfirst, hn, neutral_dual, Run.andThen, Run.noting,
          Function.comp_def] using ih t.scope
      · simp [evaluate, ht, hfirst, hn, neutral_dual]

theorem tests_negated (op : Operator) (ctx : Context) (cs : List (Condition G)) (s : Scope G) :
    op.dual.tests ctx (cs.map Condition.negated) s =
      (op.tests ctx cs s).map fun test => (test.1.negated, !test.2) := by
  induction cs generalizing s with
  | nil => rfl
  | cons c rest ih =>
    have hfirst := c.test_negated ctx s
    cases ht : c.test ctx s with
    | none =>
      rw [ht, Option.map_none] at hfirst
      simp [tests, ht, hfirst]
    | some t =>
      rw [ht, Option.map_some] at hfirst
      by_cases hn : t.value = op.neutral
      · simp [tests, ht, hfirst, hn, neutral_dual, ih]
      · simp [tests, ht, hfirst, hn, neutral_dual]

end Operator

/-- Stopping early agrees with testing everything: the outcome is that of all the answers, and the
tests, their notes and the scope that is left are those of testing the conditions up to the first one
that settles it. The other operator over the negated conditions makes the same tests, leaves the same
scope and comes to the opposite outcome. -/
theorem evaluate_stops_early (op : Operator) (ctx : Context) (cs : List (Condition G))
    (s : Scope G) :
    (∀ all, Condition.testAll ctx cs s = some all → ∃ r p, op.evaluate ctx cs s = some r ∧
      (r.value = true ↔ op.Holds all.value) ∧
      Condition.testAll ctx (cs.take (op.needed all.value)) s = some p ∧
      p.value = all.value.take (op.needed all.value) ∧ r.scope = p.scope ∧ r.notes = p.notes ∧
      op.tests ctx cs s = (cs.zip all.value).take (op.needed all.value)) ∧
    (op.dual.evaluate ctx (cs.map Condition.negated) s).map (fun r => (!r.value, r.scope)) =
      (op.evaluate ctx cs s).map (fun r => (r.value, r.scope)) ∧
    op.dual.tests ctx (cs.map Condition.negated) s =
      (op.tests ctx cs s).map (fun test => (test.1.negated, !test.2)) := by
  refine ⟨fun all hall => ?_, op.evaluate_negated ctx cs s, op.tests_negated ctx cs s⟩
  obtain ⟨p, hp, hvalue, hrun⟩ := Operator.evaluate_of_testAll hall
  exact ⟨_, p, hrun, op.combine_eq_true_iff all.value, hp, hvalue, rfl, rfl,
    Operator.tests_of_testAll hall⟩

def evenChance : Chance :=
  ⟨Binary64.ofRatio 1 2 (by decide : 1 < 2 ^ 64), by decide +kernel, by decide +kernel⟩

/-- Conditions whose answers depend on what was tested before them. -/
def tosses : List (Condition Generator) := [.random evenChance, .random evenChance,
  .custom "LUCKY" fun _ s => (Trial.bucket s).map (Run.map fun b => decide (b.val < 50)),
  .random evenChance, .never]

def tossScope : Scope Generator := Scope.fresh (Generator.seeded 0)

theorem evaluate_stops_early_tosses :
    ∃ all r p, Condition.testAll Context.empty tosses tossScope = some all ∧
      all.value = [false, false, true, false, false] ∧
      Operator.any.evaluate Context.empty tosses tossScope = some r ∧ r.value = true ∧
      Condition.testAll Context.empty (tosses.take 3) tossScope = some p ∧
      r.scope = p.scope ∧ r.notes = p.notes ∧
      Operator.any.tests Context.empty tosses tossScope =
        (tosses.take 3).zip [false, false, true] := by
  have hanswers : (Condition.testAll Context.empty tosses tossScope).map Run.value =
      some [false, false, true, false, false] := by
    decide +kernel
  obtain ⟨all, hall, hvalue⟩ := Option.map_eq_some_iff.1 hanswers
  have hneeded : Operator.any.needed all.value = 3 := by
    rw [hvalue]
    decide
  obtain ⟨r, p, hrun, hholds, hp, -, hscope, hnotes, htests⟩ :=
    (evaluate_stops_early .any Context.empty tosses tossScope).1 all hall
  rw [hneeded] at hp htests
  rw [hvalue] at hholds htests
  exact ⟨all, r, p, hall, hvalue, hrun, hholds.2 ⟨true, by simp, rfl⟩, hp, hscope, hnotes, htests⟩

end Rollout
