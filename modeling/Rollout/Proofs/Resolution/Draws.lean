import Rollout.Proofs.Condition.Draw
import Rollout.Proofs.Resolution.Forced

/-! # What a resolution draws

The tests of a resolution are the ones that it notes: of each entry the conditions up to the first
whose answer settles the outcome, and none of an entry that the URL forces on. The source of random
numbers is left as the draws of these tests leave it, one after the other. -/
namespace Rollout
set_option autoImplicit false

/-! ## Notes of tests -/

/-- The test that a note is about, by the tag of the condition, and its answer. -/
def Note.test? : Note → Option (String × Bool)
  | tested tag holds => some (tag, holds)
  | _ => none

variable {G : Type}

def Condition.labelled (test : Condition G × Bool) : String × Bool := (test.1.tag, test.2)

/-! ## Tests of an entry -/

/-- The tests that an operator makes of conditions: in order, up to the first answer that is not the
neutral one. -/
inductive Operator.Stops (op : Operator) :
    List (Condition G) → List (Condition G × Bool) → Prop
  | nil : Stops op [] []
  | settled {c : Condition G} {rest : List (Condition G)} {holds : Bool}
      (h : holds ≠ op.neutral) : Stops op (c :: rest) [(c, holds)]
  | neutral {c : Condition G} {rest : List (Condition G)} {tests : List (Condition G × Bool)}
      (h : Stops op rest tests) : Stops op (c :: rest) ((c, op.neutral) :: tests)

theorem Operator.Stops.mem {op : Operator} {cs : List (Condition G)}
    {tests : List (Condition G × Bool)} (h : op.Stops cs tests) :
    ∀ test ∈ tests, test.1 ∈ cs := by
  induction h with
  | nil => simp
  | settled _ => simp
  | neutral _ ih =>
    intro test htest
    rcases List.mem_cons.1 htest with rfl | hrest
    · exact List.mem_cons_self
    · exact List.mem_cons_of_mem _ (ih test hrest)

def Variant.TestedBy (requested : List String) (v : Variant G)
    (tests : List (Condition G × Bool)) : Prop :=
  if v.forcible = true ∧ v.id ∈ requested then tests = [] else v.operator.Stops v.conditions tests

theorem Variant.TestedBy.mem {requested : List String} {v : Variant G}
    {tests : List (Condition G × Bool)} (h : v.TestedBy requested tests) :
    ∀ test ∈ tests, test.1 ∈ v.conditions := by
  unfold TestedBy at h
  split at h
  · rw [h]
    simp
  · exact h.mem

/-! ## Draws of tests -/

def Scope.draws (s : Scope G) (tests : List (Condition G × Bool)) : List Draw :=
  Condition.allDraws s.bucket.isSome (tests.map Prod.fst)

def Scope.hasBucketAfter (s : Scope G) (tests : List (Condition G × Bool)) : Bool :=
  s.bucket.isSome || (tests.map Prod.fst).any Condition.isRandomMod

variable [RandomSource G]

def Scope.sourceAfter (s : Scope G) (draws : List Draw) : Option G :=
  draws.foldlM (Draw.next s.tries) s.source

/-! ## What is noted -/

theorem Trial.notes_of_bucket {s : Scope G} {t : Run G (Fin 100)} (h : Trial.bucket s = some t) :
    t.notes = [] := by
  cases hb : s.bucket with
  | some b =>
    rw [bucket_of_some hb] at h
    cases h
    rfl
  | none =>
    rw [bucket_of_none hb] at h
    obtain ⟨p, -, rfl⟩ := Option.map_eq_some_iff.1 h
    rfl

theorem Condition.IsBuiltin.tests_of_notes {c : Condition G} (hc : c.IsBuiltin) {ctx : Context}
    {s : Scope G} {r : Run G Bool} (h : c.test ctx s = some r) :
    r.notes.filterMap Note.test? = [] := by
  cases c with
  | custom tag ask => cases hc
  | randomMod range =>
    obtain ⟨t, ht, rfl⟩ := test_randomMod_eq_some_iff.1 h
    show t.notes.filterMap Note.test? = []
    rw [Trial.notes_of_bucket ht]
    rfl
  | experiment variation =>
    cases hs : s.service with
    | none =>
      rw [test_experiment_of_none hs] at h
      cases h
      rfl
    | some service =>
      rw [test_experiment_of_some hs] at h
      cases h
      rfl
  | _ =>
    cases h
    rfl

theorem Operator.evaluate_stops {op : Operator} {ctx : Context} {cs : List (Condition G)}
    (hcs : ∀ c ∈ cs, c.IsBuiltin) {s : Scope G} {r : Run G Bool}
    (h : op.evaluate ctx cs s = some r) :
    op.Stops cs (op.tests ctx cs s) ∧
    r.notes.filterMap Note.test? = (op.tests ctx cs s).map Condition.labelled := by
  induction cs generalizing s r with
  | nil =>
    cases h
    exact ⟨.nil, rfl⟩
  | cons c rest ih =>
    obtain ⟨hc, hrest⟩ := List.forall_mem_cons.1 hcs
    obtain ⟨t, ht, ⟨hn, rfl⟩ | ⟨hn, u, hu, rfl⟩⟩ := evaluate_cons_eq_some_iff.1 h
    · -- The answer settles the outcome, so this test is the last one.
      simp only [tests, ht, if_neg hn, List.filterMap_append, hc.tests_of_notes ht]
      exact ⟨.settled hn, rfl⟩
    · obtain ⟨hstops, hnotes⟩ := ih hrest hu
      simp only [tests, ht, if_pos hn, List.filterMap_append, hc.tests_of_notes ht, hnotes]
      rw [hn]
      exact ⟨.neutral hstops, rfl⟩

namespace Variant

theorem activation_testedBy {requested : List String} {ctx : Context} {v : Variant G}
    (hcs : ∀ c ∈ v.conditions, c.IsBuiltin) {s : Scope G} {t : Run G Activation}
    (h : v.activation requested ctx s = some t) :
    v.TestedBy requested (v.tests requested ctx s) ∧
    t.notes.filterMap Note.test? = (v.tests requested ctx s).map Condition.labelled := by
  cases hf : v.isForced requested with
  | true =>
    rw [activation_of_forced hf] at h
    cases h
    rw [tests_of_forced hf, TestedBy, if_pos (isForced_eq_true_iff.1 hf)]
    exact ⟨rfl, rfl⟩
  | false =>
    have hforced : ¬(v.forcible = true ∧ v.id ∈ requested) := by
      rw [← isForced_eq_true_iff, hf]
      exact Bool.false_ne_true
    obtain ⟨u, hu, rfl⟩ := (activation_eq_some_iff hf).1 h
    rw [tests, hf, TestedBy, if_neg hforced]
    exact Operator.evaluate_stops hcs hu

omit [RandomSource G] in
theorem tests_of_activeNotes (v : Variant G) (a : Activation) :
    (v.activeNotes a).filterMap Note.test? = [] := by
  cases a <;> rfl

theorem activations_testedBy {requested : List String} {ctx : Context} {vs : List (Variant G)}
    (hcs : ∀ c ∈ vs.flatMap conditions, c.IsBuiltin) {s : Scope G} {u : Run G (List Activation)}
    (h : activations requested ctx vs s = some u) :
    ∃ tests, List.Forall₂ (TestedBy requested) vs tests ∧
      allTests requested ctx vs s = tests.flatten ∧
      u.notes.filterMap Note.test? = tests.flatten.map Condition.labelled := by
  induction vs generalizing s u with
  | nil =>
    cases h
    exact ⟨[], .nil, rfl, rfl⟩
  | cons v rest ih =>
    rw [List.flatMap_cons] at hcs
    obtain ⟨t, w, ht, hw, rfl⟩ := activations_cons_eq_some_iff.1 h
    obtain ⟨hfirst, hnotes⟩ :=
      activation_testedBy (fun c hc => hcs c (List.mem_append_left _ hc)) ht
    obtain ⟨tests, hrest, htests, hnotes'⟩ :=
      ih (fun c hc => hcs c (List.mem_append_right _ hc)) hw
    refine ⟨v.tests requested ctx s :: tests, .cons hfirst hrest, ?_, ?_⟩
    · rw [allTests_cons ht, htests, List.flatten_cons]
    · rw [List.filterMap_append, List.filterMap_append, hnotes, tests_of_activeNotes, hnotes',
        List.append_nil, List.flatten_cons, List.map_append]

end Variant

omit [RandomSource G] in
theorem Engine.tests_of_allNotes (e : Engine G) (ctx : Context) (vs : List (Variant G))
    (u : Run G (List Activation)) :
    (e.allNotes ctx vs u).filterMap Note.test? = u.notes.filterMap Note.test? := by
  rw [allNotes, List.filterMap_append, List.filterMap_append]
  split <;> simp [Note.test?, List.filterMap_cons]

/-! ## Draws of a run -/

/-- What tests leave of a scope: the source after all their draws, and the bucket if one of them
looks at it. -/
theorem Tested.scope {ctx : Context} {tests : List (Condition G × Bool)} {s t : Scope G}
    (h : Tested ctx tests s t) (hbuiltin : ∀ test ∈ tests, test.1.IsBuiltin) :
    s.sourceAfter (s.draws tests) = some t.source ∧ t.bucket.isSome = s.hasBucketAfter tests ∧
    t.tries = s.tries := by
  induction h with
  | nil s => exact ⟨rfl, (Bool.or_false _).symm, rfl⟩
  | @cons c s t r tests first rest ih =>
    obtain ⟨hc, hrest⟩ := List.forall_mem_cons.1 hbuiltin
    obtain ⟨hsource, hbucket, htries⟩ := (hc.takes first).scope
    obtain ⟨hsource', hbucket', htries'⟩ := ih hrest
    refine ⟨?_, ?_, htries'.trans htries⟩
    · -- The draws of the rest depend on whether this test has left a bucket.
      rw [Scope.sourceAfter, Scope.draws, hbucket, htries] at hsource'
      rw [Scope.sourceAfter, Scope.draws, List.map_cons, Condition.allDraws, List.foldlM_append,
        hsource]
      exact hsource'
    · rw [hbucket', Scope.hasBucketAfter, hbucket, Scope.hasBucketAfter, List.map_cons,
        List.any_cons, Bool.or_assoc]

/-- Tests that lead from one scope to the other, each with what it draws, and nothing else drawn. -/
structure Draws (ctx : Context) (tests : List (Condition G × Bool)) (s t : Scope G) : Prop where
  source : s.sourceAfter (s.draws tests) = some t.source
  wide : (s.draws tests).count .wide = (tests.map Prod.fst).countP Condition.isRandom
  bucket : (s.draws tests).count .bucket =
    if s.bucket.isNone && (tests.map Prod.fst).any Condition.isRandomMod then 1 else 0
  /-- Each test is made where the tests before it lead, with the source that their draws leave. -/
  each : ∀ before c holds after, tests = before ++ (c, holds) :: after → ∃ u r,
    Tested ctx before s u ∧ c.test ctx u = some r ∧ r.value = holds ∧
    Tested ctx after r.scope t ∧ s.sourceAfter (s.draws before) = some u.source ∧
    u.bucket.isSome = s.hasBucketAfter before ∧ u.tries = s.tries ∧ c.Takes ctx u r

theorem Tested.drawing {ctx : Context} {tests : List (Condition G × Bool)} {s t : Scope G}
    (h : Tested ctx tests s t) (hbuiltin : ∀ test ∈ tests, test.1.IsBuiltin) :
    Draws ctx tests s t where
  source := (h.scope hbuiltin).1
  wide := Condition.count_wide_allDraws _ _
  bucket := by
    rw [Scope.draws, Condition.count_bucket_allDraws, Option.not_isSome]
  each := by
    rintro before c holds after rfl
    obtain ⟨u, hbefore, hrest⟩ := h.of_append
    cases hrest with
    | @cons _ _ _ r _ first hafter =>
      have hc : c.IsBuiltin := hbuiltin (c, r.value) (by simp)
      have hbuiltin' : ∀ test ∈ before, test.1.IsBuiltin := by
        intro test htest
        exact hbuiltin test (List.mem_append_left _ htest)
      obtain ⟨hsource, hbucket, htries⟩ := hbefore.scope hbuiltin'
      exact ⟨u, r, hbefore, first, rfl, hafter, hsource, hbucket, htries, hc.takes first⟩

/-! ## Every resolution -/

/-- A resolution of built-in kinds draws what its tests need: 64 bits for each `random` condition
that it tests, and the shared bucket at the first test that looks at it, unless there is one. -/
theorem resolveIn_consumes {e : Engine G} {config : Document} {vs : List (Variant G)}
    (hparse : e.parse config = .ok vs) (hkinds : e.registry.OfBuiltinKinds config) {ctx : Context}
    {s : Scope G} {run : Run G (Except ConfigError Resolution)}
    (hrun : e.resolveIn config ctx s = some run) :
    ∃ tests, List.Forall₂ (Variant.TestedBy (e.requested ctx)) vs tests ∧
      run.notes.filterMap Note.test? = tests.flatten.map Condition.labelled ∧
      Draws ctx tests.flatten (s.inherit e.service) run.scope := by
  obtain ⟨u, hu, rfl⟩ := (Engine.resolveIn_eq_some_iff hparse).1 hrun
  have hbuiltin := hkinds.isBuiltin hparse
  obtain ⟨tests, hall, htests, hnotes⟩ := Variant.activations_testedBy hbuiltin hu
  refine ⟨tests, hall, ?_, ?_⟩
  · show (e.allNotes ctx vs u).filterMap Note.test? = _
    rw [Engine.tests_of_allNotes, hnotes]
  · have htested := Variant.activations_tested hu
    rw [htests] at htested
    refine htested.drawing fun test htest => ?_
    obtain ⟨ts, hts, htest⟩ := List.mem_flatten.1 htest
    obtain ⟨v, hv, htestedBy⟩ := rel_of_mem_right hall hts
    exact hbuiltin test.1 (List.mem_flatMap.2 ⟨v, hv, htestedBy.mem test htest⟩)

/-- A source that keeps a list of how many bits were taken from it each time. -/
structure Ledger where
  source : Generator
  taken : List ℕ

instance : RandomSource Ledger where
  word l := ((RandomSource.word l.source).1, ⟨(RandomSource.word l.source).2, l.taken ++ [32]⟩)
  wide l := ((RandomSource.wide l.source).1, ⟨(RandomSource.wide l.source).2, l.taken ++ [64]⟩)

def ledgerEngine : Engine Ledger := .standard

def ledgerScope : Scope Ledger := Scope.fresh ⟨Generator.seeded 5, []⟩

/-- The URL forces the first entry on, the second and the third stop early, and the last looks at the
bucket again. -/
def mixedDraws : Document := .list [forcibleEntry "a" [threeQuarters, firstHalf],
  forcibleEntry "b" [firstHalf, threeQuarters], forcibleEntry "c" [threeQuarters, firstHalf],
  forcibleEntry "d" [firstHalf]]

/-- The first word is rejected, so the bucket takes two. -/
theorem resolveIn_consumes_mixed :
    ∃ run, ∃ tests : List (List (Condition Ledger × Bool)),
      ledgerEngine.resolveIn mixedDraws requestOfA ledgerScope = some run ∧
      tests.flatten.map Condition.labelled =
        [("RANDOM_MOD", true), ("RANDOM", true), ("RANDOM_MOD", true)] ∧
      Draws requestOfA tests.flatten (ledgerScope.inherit ledgerEngine.service) run.scope ∧
      run.scope.source.taken = [32, 32, 64] := by
  have htaken : (ledgerEngine.resolveIn mixedDraws requestOfA ledgerScope).map
      (fun run => (run.notes.filterMap Note.test?, run.scope.source.taken)) =
      some ([("RANDOM_MOD", true), ("RANDOM", true), ("RANDOM_MOD", true)], [32, 32, 64]) := by
    decide +kernel
  obtain ⟨run, hrun, hboth⟩ := Option.map_eq_some_iff.1 htaken
  obtain ⟨hnotes, hwords⟩ := Prod.mk.inj hboth
  have hok : (ledgerEngine.parse mixedDraws).isOk = true := by decide +kernel
  obtain ⟨vs, hparse⟩ := Fault.exists_of_isOk hok
  have hkinds := Registry.ofBuiltinKinds_of_parseAll hparse
  obtain ⟨tests, -, hnotes', hdraws⟩ := resolveIn_consumes hparse hkinds hrun
  exact ⟨run, tests, hrun, hnotes'.symm.trans hnotes, hdraws, hwords⟩

end Rollout
