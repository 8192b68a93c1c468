import Rollout.Proofs.Condition.Percent
import Rollout.Proofs.Resolution.Tests
import Rollout.Proofs.Variant.Parsed

/-! # Entries that the URL forces on

A forced entry is not tested, so the run goes on from the scope in which it came to the entry. What
is left of a configuration when forced entries are taken out is therefore resolved with the same
tests in the same scopes. -/
namespace Rollout
set_option autoImplicit false

/-! ## Marked items -/

section Marked

variable {α β γ : Type}

/-- The items whose mark is `true`. -/
def marked : List Bool → List α → List α
  | true :: marks, x :: xs => x :: marked marks xs
  | false :: marks, _ :: xs => marked marks xs
  | _, _ => []

theorem marked_nil (marks : List Bool) : marked marks ([] : List α) = [] := by
  cases marks with
  | nil => rfl
  | cons mark marks => cases mark <;> rfl

theorem forall₂_marked {R : α → β → Prop} {as : List α} {bs : List β} (h : List.Forall₂ R as bs)
    (marks : List Bool) : List.Forall₂ R (marked marks as) (marked marks bs) := by
  induction h generalizing marks with
  | nil =>
    rw [marked_nil, marked_nil]
    exact .nil
  | cons hab _ ih =>
    cases marks with
    | nil => exact .nil
    | cons mark marks =>
      cases mark with
      | false => exact ih marks
      | true => exact .cons hab (ih marks)

theorem marked_zipWith (f : α → β → γ) (marks : List Bool) (as : List α) (bs : List β) :
    marked marks (List.zipWith f as bs) = List.zipWith f (marked marks as) (marked marks bs) := by
  induction as generalizing marks bs with
  | nil => rw [List.zipWith_nil_left, marked_nil, marked_nil, List.zipWith_nil_left]
  | cons a as ih =>
    cases bs with
    | nil => rw [List.zipWith_nil_right, marked_nil, marked_nil, List.zipWith_nil_right]
    | cons b bs =>
      cases marks with
      | nil => rfl
      | cons mark marks =>
        cases mark with
        | false => exact ih marks bs
        | true => exact congrArg (f a b :: ·) (ih marks bs)

end Marked

/-! ## Notes of tests -/

/-- A note of a test or of what it met, and none of an entry or of a whole resolution. -/
def Note.isTest : Note → Bool
  | tested _ _ => true
  | answered _ _ => true
  | noService => true
  | _ => false

variable {G : Type} [RandomSource G]

omit [RandomSource G] in
theorem Variant.filter_isTest_activeNotes (v : Variant G) (a : Activation) :
    (v.activeNotes a).filter Note.isTest = [] := by
  cases a <;> rfl

omit [RandomSource G] in
theorem Engine.filter_isTest_allNotes (e : Engine G) (ctx : Context) (vs : List (Variant G))
    (u : Run G (List Activation)) :
    (e.allNotes ctx vs u).filter Note.isTest = u.notes.filter Note.isTest := by
  rw [allNotes, List.filter_append, List.filter_append]
  split <;> simp [Note.isTest]

/-! ## Runs without forced entries -/

namespace Variant

theorem isForced_of_value {requested : List String} {ctx : Context} {v : Variant G} {s : Scope G}
    {t : Run G Activation} (h : v.activation requested ctx s = some t)
    (hvalue : t.value = .forced) : v.isForced requested = true := by
  by_contra hn
  obtain ⟨u, -, rfl⟩ := (activation_eq_some_iff (Bool.eq_false_iff.2 hn)).1 h
  cases hu : u.value <;> simp [hu] at hvalue

/-- Entries that are forced may be left out: the others are activated as before, by the same tests,
and leave the same scope. -/
theorem activations_marked {requested : List String} {ctx : Context} {vs : List (Variant G)}
    {s : Scope G} {u : Run G (List Activation)} (h : activations requested ctx vs s = some u)
    {marks : List Bool}
    (hmarks : List.Forall₂ (fun mark a => mark = false → a = .forced) marks u.value) :
    ∃ w, activations requested ctx (marked marks vs) s = some w ∧
      w.value = marked marks u.value ∧ w.scope = u.scope ∧
      w.notes.filter Note.isTest = u.notes.filter Note.isTest ∧
      allTests requested ctx (marked marks vs) s = allTests requested ctx vs s := by
  induction vs generalizing marks s u with
  | nil =>
    cases h
    rw [marked_nil, marked_nil]
    exact ⟨_, rfl, rfl, rfl, rfl, rfl⟩
  | cons v rest ih =>
    obtain ⟨t, w, ht, hw, rfl⟩ := activations_cons_eq_some_iff.1 h
    cases hmarks with
    | @cons mark _ marks _ hmark hmarks =>
      obtain ⟨x, hx, hvalue, hscope, hnotes, htests⟩ := ih hw hmarks
      rw [allTests_cons ht]
      cases mark with
      | false =>
        -- A forced entry makes no test and leaves `s` itself to the rest.
        have hforced := isForced_of_value ht (hmark rfl)
        rw [activation_of_forced hforced] at ht
        cases ht
        refine ⟨x, hx, hvalue, hscope, ?_, ?_⟩
        · rw [List.nil_append, List.filter_append, filter_isTest_activeNotes, hnotes]
          rfl
        · rw [tests_of_forced hforced]
          exact htests
      | true =>
        refine ⟨_, activations_cons_eq_some_iff.2 ⟨t, x, ht, hx, rfl⟩, ?_, hscope, ?_, ?_⟩
        · rw [hvalue]
          rfl
        · simp only [List.filter_append, hnotes]
        · show allTests requested ctx (v :: marked marks rest) s = _
          rw [allTests_cons ht, htests]

end Variant

/-! ## Every resolution -/

omit [RandomSource G] in
theorem Engine.parse_marked {e : Engine G} {entries : List Document} {vs : List (Variant G)}
    (h : e.parse (.list entries) = .ok vs) (marks : List Bool) :
    e.parse (.list (marked marks entries)) = .ok (marked marks vs) := by
  obtain ⟨_, hlist, hparsed⟩ := Variant.parseAll_eq_ok_iff.1 h
  cases hlist
  exact Variant.parseAll_eq_ok_iff.2 ⟨_, rfl, forall₂_marked hparsed marks⟩

/-- Taking out entries that the URL forces on changes nothing for the others: they are activated as
before, by the same tests in the same order with the same answers, and the same scope is left. -/
theorem resolveIn_without_forced {e : Engine G} {entries : List Document} {ctx : Context}
    {s : Scope G} {run : Run G (Except ConfigError Resolution)} {r : Resolution}
    (hrun : e.resolveIn (.list entries) ctx s = some run) (hr : run.value = .ok r)
    {marks : List Bool}
    (hmarks : List.Forall₂ (fun mark o => mark = false → o.activation = .forced) marks r.outcomes) :
    ∃ run' r', e.resolveIn (.list (marked marks entries)) ctx s = some run' ∧
      run'.value = .ok r' ∧ r'.outcomes = marked marks r.outcomes ∧ run'.scope = run.scope ∧
      e.tests (.list (marked marks entries)) ctx s = e.tests (.list entries) ctx s ∧
      Tested ctx (e.tests (.list entries) ctx s) (s.inherit e.service) run.scope ∧
      run'.notes.filter Note.isTest = run.notes.filter Note.isTest := by
  rcases Engine.resolveIn_cases hrun with ⟨fault, -, rfl⟩ | ⟨vs, u, hparse, hu, rfl⟩
  · cases hr
  · cases hr
    have hactivations := Variant.activations_of_outcomes (Variant.activations_forall₂ hu).1
    have hvalue : List.Forall₂ (fun mark a => mark = false → a = .forced) marks u.value := by
      rw [← hactivations, List.forall₂_map_right_iff]
      exact hmarks
    obtain ⟨w, hw, hwvalue, hscope, hnotes, htests⟩ := Variant.activations_marked hu hvalue
    have hparse' := Engine.parse_marked hparse marks
    refine ⟨_, _, (Engine.resolveIn_eq_some_iff hparse').2 ⟨w, hw, rfl⟩, rfl, ?_, hscope, ?_, ?_,
      ?_⟩
    · rw [Engine.resolution, hwvalue, Engine.resolution, marked_zipWith]
    · rw [Engine.tests_of_parse hparse', Engine.tests_of_parse hparse, htests]
    · rw [Engine.tests_of_parse hparse]
      exact Variant.activations_tested hu
    · rw [Engine.filter_isTest_allNotes, Engine.filter_isTest_allNotes, hnotes]

def threeQuarters : Document := .object [("type", .text "RANDOM"),
  ("value", .number (.real (Binary64.ofRatio 3 4 (by decide))))]

def firstHalf : Document := .object [("type", .text "RANDOM_MOD"),
  ("from", .number (.percent 0)), ("to", .number (.percent 50))]

def forcibleEntry (id : String) (conditions : List Document) : Document := .object [
  ("id", .text id), ("conditions", .list conditions), ("mods", .object [("page", .text id)]),
  ("allowUrlOverrides", .boolean true)]

/-- Entries with draws; the URL of the request forces the first and the third on. -/
def fourDraws : List Document := [forcibleEntry "a" [threeQuarters, firstHalf],
  forcibleEntry "b" [threeQuarters], forcibleEntry "a" [firstHalf], forcibleEntry "c" [firstHalf]]

def requestOfA : Context := { Context.empty with search := some "?variants=a" }

def drawScope : Scope Generator := Scope.fresh (Generator.seeded 5)

theorem resolveIn_without_forced_fourDraws :
    ∃ run r, Engine.standard.resolveIn (.list fourDraws) requestOfA drawScope = some run ∧
      run.value = .ok r ∧
      List.Forall₂ (fun mark o => mark = false → o.activation = .forced)
        [false, true, false, true] r.outcomes ∧
      ∃ run' r', Engine.standard.resolveIn
          (.list [forcibleEntry "b" [threeQuarters], forcibleEntry "c" [firstHalf]]) requestOfA
            drawScope = some run' ∧ run'.value = .ok r' ∧
        r'.outcomes = marked [false, true, false, true] r.outcomes ∧ run'.scope = run.scope ∧
        Engine.standard.tests
          (.list [forcibleEntry "b" [threeQuarters], forcibleEntry "c" [firstHalf]]) requestOfA
            drawScope = Engine.standard.tests (.list fourDraws) requestOfA drawScope ∧
        Tested requestOfA (Engine.standard.tests (.list fourDraws) requestOfA drawScope)
          (drawScope.inherit (Engine.standard : Engine Generator).service) run.scope ∧
        run'.notes.filter Note.isTest = run.notes.filter Note.isTest := by
  have houtcomes : (Engine.standard.resolveIn (.list fourDraws) requestOfA drawScope).map
      (fun run => run.value.toOption.map Resolution.outcomes) =
      some (some [⟨"a", .forced⟩, ⟨"b", .conditions⟩, ⟨"a", .forced⟩, ⟨"c", .conditions⟩]) := by
    decide +kernel
  obtain ⟨run, hrun, hvalue⟩ := Option.map_eq_some_iff.1 houtcomes
  obtain ⟨r, hr, hr'⟩ : ∃ r, run.value = .ok r ∧ r.outcomes = _ := by
    cases hr : run.value with
    | error fault => rw [hr] at hvalue; cases hvalue
    | ok r => rw [hr] at hvalue; exact ⟨r, rfl, Option.some_inj.1 hvalue⟩
  have hmarks : List.Forall₂ (fun mark o => mark = false → o.activation = .forced)
      [false, true, false, true] r.outcomes := by
    simp [hr']
  have hleft : marked [false, true, false, true] fourDraws =
      [forcibleEntry "b" [threeQuarters], forcibleEntry "c" [firstHalf]] := rfl
  have hall := resolveIn_without_forced hrun hr hmarks
  rw [hleft] at hall
  exact ⟨run, r, hrun, hr, hmarks, hall⟩

end Rollout
