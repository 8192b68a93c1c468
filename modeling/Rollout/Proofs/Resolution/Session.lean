import Mathlib.Data.List.Chain
import Rollout.Proofs.Condition.Keeps
import Rollout.Proofs.Resolution.OptedIn
import Rollout.Proofs.Resolution.Tests

/-! # Sessions

A caller builds a scope in any number of steps, and then draws from it and resolves configurations
in it, with whichever engines. The bucket and the service of the scope are written once: what a step
finds there it leaves there, so what stands in a scope at one moment of a session stands in it at
every later one. -/
namespace Rollout
set_option autoImplicit false

variable {G : Type}

/-! ## Building a scope -/

inductive Setup (G : Type) where
  | source (g : G)
  | bucket (n : UInt32)
  | service (service : Option Service)

namespace Setup

def apply (s : Scope G) : Setup G → Scope G
  | source g => s.withSource g
  | bucket n => s.withBucket n.toNat
  | service v => s.withService v

def pin? : Setup G → Option UInt32
  | bucket n => some n
  | _ => none

/-- The last step that pins the bucket pins it to this one. -/
def Pins (setups : List (Setup G)) (b : Fin 100) : Prop :=
  ∃ n, setups.reverse.findSome? pin? = some n ∧ b.val = n.toNat % 100

end Setup

/-- A fresh scope after steps of building. Its draws try at most `tries` words. -/
def Scope.built (g : G) (tries : ℕ) (setups : List (Setup G)) : Scope G :=
  setups.foldl Setup.apply { fresh g with tries := tries }

theorem Scope.bucket_built (g : G) (tries : ℕ) (setups : List (Setup G)) (b : Fin 100) :
    (built g tries setups).bucket = some b ↔ Setup.Pins setups b := by
  induction setups using List.reverseRecOn with
  | nil => simp [built, fresh, Setup.Pins]
  | append_singleton setups setup ih =>
    rw [built, List.foldl_concat, Setup.Pins, List.reverse_concat, List.findSome?_cons]
    cases setup with
    | bucket n => simp [Setup.apply, withBucket, Setup.pin?, Fin.ext_iff, eq_comm]
    | source _ => exact ih
    | service _ => exact ih

/-! ## Using a scope -/

/-- One use of a scope: a uniform draw, the draw of the bucket, or a resolution by some engine. -/
inductive Use (G : Type) where
  | uniform
  | bucket
  | resolve (e : Engine G) (config : Document) (ctx : Context)

variable [RandomSource G]

/-- The scopes that tests lead through. -/
def passed (ctx : Context) : List (Condition G × Bool) → Scope G → List (Scope G)
  | [], _ => []
  | test :: rest, s =>
    match test.1.test ctx s with
    | none => []
    | some r => r.scope :: passed ctx rest r.scope

namespace Use

/-- The scope that a use leaves; none if it waits for a bucket that never comes. -/
def after : Use G → Scope G → Option (Scope G)
  | uniform, s => (Trial.uniform s).map Run.scope
  | bucket, s => (Trial.bucket s).map Run.scope
  | resolve e config ctx, s => (e.resolveIn config ctx s).map Run.scope

/-- The scopes that a use leads through, whether or not it returns. -/
def moments : Use G → Scope G → List (Scope G)
  | uniform, s => (uniform.after s).toList
  | bucket, s => (bucket.after s).toList
  | resolve e config ctx, s =>
    match e.parse config with
    | .error _ => []
    | .ok _ => s.inherit e.service :: passed ctx (e.tests config ctx s) (s.inherit e.service)

/-- The conditions of a configuration without faults are of built-in kinds. -/
def OfBuiltinKinds : Use G → Prop
  | resolve e config _ =>
    ∀ vs, e.parse config = .ok vs → ∀ c ∈ vs.flatMap Variant.conditions, c.IsBuiltin
  | _ => True

end Use

/-- The scopes of a session, from the one at its start on. -/
def Scope.moments : List (Use G) → Scope G → List (Scope G)
  | [], s => [s]
  | u :: rest, s => s :: u.moments s ++
    match u.after s with
    | none => []
    | some t => moments rest t

/-! ## Along a session -/

theorem isChain_passed {ctx : Context} {tests : List (Condition G × Bool)}
    (h : ∀ test ∈ tests, test.1.IsBuiltin) (s : Scope G) :
    (s :: passed ctx tests s).IsChain Scope.Keeps := by
  induction tests generalizing s with
  | nil => exact .singleton s
  | cons test rest ih =>
    obtain ⟨hfirst, hrest⟩ := List.forall_mem_cons.1 h
    cases ht : test.1.test ctx s with
    | none =>
      rw [passed, ht]
      exact .singleton s
    | some r =>
      rw [passed, ht]
      exact .cons_cons (hfirst.keeps ht) (ih hrest r.scope)

theorem Tested.last_passed {ctx : Context} {tests : List (Condition G × Bool)} {s t : Scope G}
    (h : Tested ctx tests s t) : (s :: passed ctx tests s).getLast? = some t := by
  induction h with
  | nil s => rfl
  | cons first _ ih =>
    rw [passed, first, List.getLast?_cons_cons]
    exact ih

namespace Use

theorem OfBuiltinKinds.isBuiltin {e : Engine G} {config : Document} {ctx : Context}
    (h : (resolve e config ctx).OfBuiltinKinds) {s : Scope G} {test : Condition G × Bool}
    (htest : test ∈ e.tests config ctx s) : test.1.IsBuiltin := by
  unfold Engine.tests at htest
  split at htest
  · cases htest
  · rename_i vs hparse
    exact h vs hparse test.1 (Variant.mem_allTests htest)

theorem isChain_moments {u : Use G} (h : u.OfBuiltinKinds) (s : Scope G) :
    (s :: u.moments s).IsChain Scope.Keeps := by
  cases u with
  | uniform => exact .cons_cons (Scope.keeps_of_eq rfl rfl) (.singleton _)
  | bucket =>
    cases hdraw : Trial.bucket s with
    | none =>
      rw [moments, after, hdraw]
      exact .singleton s
    | some r =>
      rw [moments, after, hdraw]
      exact .cons_cons (Trial.keeps_bucket hdraw) (.singleton _)
  | resolve e config ctx =>
    cases hparse : e.parse config with
    | error fault =>
      simp only [moments, hparse]
      exact .singleton s
    | ok vs =>
      simp only [moments, hparse]
      exact .cons_cons (s.keeps_inherit e.service)
        (isChain_passed (fun _ htest => h.isBuiltin htest) _)

theorem last_moments {u : Use G} {s t : Scope G} (h : u.after s = some t) :
    (s :: u.moments s).getLast? = some t := by
  cases u with
  | uniform =>
    rw [moments, h]
    rfl
  | bucket =>
    rw [moments, h]
    rfl
  | resolve e config ctx =>
    obtain ⟨run, hrun, rfl⟩ := Option.map_eq_some_iff.1 h
    rcases Engine.resolveIn_cases hrun with ⟨fault, hparse, rfl⟩ | ⟨vs, u, hparse, hu, rfl⟩
    · simp only [moments, hparse]
      rfl
    · simp only [moments, hparse, List.getLast?_cons_cons]
      rw [Engine.tests_of_parse hparse]
      exact (Variant.activations_tested hu).last_passed

end Use

theorem Scope.head_moments (uses : List (Use G)) (s : Scope G) :
    (s.moments uses).head? = some s := by
  cases uses <;> rfl

theorem Scope.isChain_moments {uses : List (Use G)} (h : ∀ u ∈ uses, u.OfBuiltinKinds)
    (s : Scope G) : (s.moments uses).IsChain Keeps := by
  induction uses generalizing s with
  | nil => exact .singleton s
  | cons u rest ih =>
    obtain ⟨hfirst, hrest⟩ := List.forall_mem_cons.1 h
    have huse := u.isChain_moments hfirst s
    cases ht : u.after s with
    | none =>
      rw [moments, ht, List.append_nil]
      exact huse
    | some t =>
      rw [moments, ht]
      refine List.isChain_append.2 ⟨huse, ih hrest t, ?_⟩
      intro x hx y hy
      rw [Use.last_moments ht] at hx
      rw [head_moments] at hy
      cases hx
      cases hy
      exact keeps_of_eq rfl rfl

theorem Scope.pairwise_moments {uses : List (Use G)} (h : ∀ u ∈ uses, u.OfBuiltinKinds)
    (s : Scope G) : (s.moments uses).Pairwise Keeps :=
  List.isChain_iff_pairwise.1 (isChain_moments h s)

theorem Scope.keeps_of_mem_moments {uses : List (Use G)} (h : ∀ u ∈ uses, u.OfBuiltinKinds)
    {s t : Scope G} (ht : t ∈ s.moments uses) : s.Keeps t := by
  have hpairs := pairwise_moments h s
  obtain ⟨later, hmoments⟩ := List.head?_eq_some_iff.1 (head_moments uses s)
  rw [hmoments] at ht hpairs
  rcases List.mem_cons.1 ht with rfl | hlater
  · exact keeps_of_eq rfl rfl
  · exact (List.pairwise_cons.1 hpairs).1 t hlater

/-! ## Who is asked -/

/-- How often a test asks the service if there is one. -/
def Condition.asks : Condition G → ℕ
  | experiment _ => 1
  | _ => 0

def timesAsked (tests : List (Condition G × Bool)) : ℕ := (tests.map fun test => test.1.asks).sum

theorem Condition.IsBuiltin.service_of_test {c : Condition G} (hc : c.IsBuiltin) {ctx : Context}
    {s : Scope G} {r : Run G Bool} (h : c.test ctx s = some r) :
    r.scope.service = s.service.map fun v => v.after c.asks := by
  have hnone : s.service = s.service.map fun v => v.after 0 := by cases s.service <;> rfl
  cases c with
  | experiment variation =>
    cases hs : s.service with
    | none =>
      rw [test_experiment_of_none hs] at h
      cases h
      exact hs
    | some service =>
      rw [test_experiment_of_some hs] at h
      cases h
      rfl
  | randomMod range =>
    obtain ⟨t, ht, rfl⟩ := test_randomMod_eq_some_iff.1 h
    exact (Trial.bucket_spec ht).2.trans hnone
  | custom tag ask => cases hc
  | _ =>
    cases h
    exact hnone

theorem Tested.service {ctx : Context} {tests : List (Condition G × Bool)} {s t : Scope G}
    (h : Tested ctx tests s t) (hbuiltin : ∀ test ∈ tests, test.1.IsBuiltin) :
    t.service = s.service.map fun v => v.after (timesAsked tests) := by
  induction h with
  | nil s => cases s.service <;> rfl
  | cons first _ ih =>
    obtain ⟨hc, hrest⟩ := List.forall_mem_cons.1 hbuiltin
    rw [ih hrest, hc.service_of_test first, Option.map_map]
    congr 1
    funext v
    simp only [Function.comp_apply, Service.after_after, timesAsked, List.map_cons, List.sum_cons]

/-- An experiment is answered by the service of the scope, or by the engine's if it had none, which
the tests before it may have asked already. -/
theorem Engine.test_experiment {e : Engine G} {config : Document} {ctx : Context}
    (h : (Use.resolve e config ctx).OfBuiltinKinds) {s : Scope G}
    {before after : List (Condition G × Bool)} {variation : UInt64} {holds : Bool}
    (htests : e.tests config ctx s = before ++ (.experiment variation, holds) :: after) :
    ∃ u, Tested ctx before (s.inherit e.service) u ∧
      u.service = (s.service <|> e.service).map (fun v => v.after (timesAsked before)) ∧
      holds = u.service.any fun v => Condition.matchesVariation variation (v.answers v.asked) := by
  obtain ⟨t, ht⟩ := e.exists_tested config ctx s
  rw [htests] at ht
  obtain ⟨u, hu, hrest⟩ := ht.of_append
  have hbuiltin : ∀ test ∈ before, test.1.IsBuiltin := by
    intro test htest
    refine h.isBuiltin (s := s) ?_
    rw [htests]
    exact List.mem_append_left _ htest
  refine ⟨u, hu, hu.service hbuiltin, ?_⟩
  cases hrest with
  | cons first _ =>
    cases hs : u.service with
    | none =>
      rw [Condition.test_experiment_of_none hs] at first
      cases first
      rfl
    | some service =>
      rw [Condition.test_experiment_of_some hs] at first
      cases first
      rfl

/-! ## Every session -/

omit [RandomSource G] in
/-- An engine without kinds of its own resolves with the built-in kinds, or finds a fault. -/
theorem Use.ofBuiltinKinds_of_registry {e : Engine G} {config : Document}
    (h : e.registry = Registry.builtin) (ctx : Context) :
    (resolve e config ctx).OfBuiltinKinds := by
  intro vs hparse
  have hkinds : e.registry.OfBuiltinKinds config := by
    rw [Engine.parse, h] at hparse
    rw [h]
    exact Registry.ofBuiltinKinds_of_parseAll hparse
  exact hkinds.isBuiltin hparse

/-- The bucket of a scope and its service are written once. The bucket is below 100, it is the one
pinned last or it was drawn, and once it is there every later draw gives it again. A service that is
attached stays, whatever the engines bring along, and each test of an experiment asks the service
that the resolution found in the scope, or else the engine's. -/
theorem Scope.moments_write_once (g : G) (tries : ℕ) (setups : List (Setup G))
    {uses : List (Use G)} (h : ∀ u ∈ uses, u.OfBuiltinKinds) :
    (∀ b, (built g tries setups).bucket = some b ↔ Setup.Pins setups b) ∧
    (∀ t ∈ (built g tries setups).moments uses,
      (∀ b, t.bucket = some b →
        b.val < 100 ∧ (Setup.Pins setups b ∨ ∃ w, Random.bucket? w = some b)) ∧
      ∀ r, Trial.bucket t = some r → r.scope.bucket = some r.value) ∧
    ((built g tries setups).moments uses).Pairwise Keeps ∧
    ∀ e config ctx, (Use.resolve e config ctx).OfBuiltinKinds →
      ∀ (s : Scope G) before variation holds after,
        e.tests config ctx s = before ++ (.experiment variation, holds) :: after →
        ∃ u, Tested ctx before (s.inherit e.service) u ∧
          u.service = (s.service <|> e.service).map (fun v => v.after (timesAsked before)) ∧
          holds = u.service.any fun v =>
            Condition.matchesVariation variation (v.answers v.asked) := by
  refine ⟨bucket_built g tries setups, fun t ht => ⟨fun b hb => ⟨b.isLt, ?_⟩, ?_⟩,
    pairwise_moments h _, ?_⟩
  · -- The session starts at the scope that was built, so `t` keeps what was pinned there.
    have hkeeps := keeps_of_mem_moments h ht
    cases hfirst : (built g tries setups).bucket with
    | none => exact .inr (hkeeps.drawn hfirst b hb)
    | some c =>
      cases (hkeeps.bucket c hfirst).1.symm.trans hb
      exact .inl ((bucket_built g tries setups b).1 hfirst)
  · exact fun r hr => (Trial.bucket_spec hr).1
  · exact fun e config ctx hkinds s before variation holds after htests =>
      Engine.test_experiment hkinds htests

def choosing (variation : Int64) : Engine Generator :=
  { Engine.standard with service := some (Service.fixed variation) }

def pinnedTwice : List (Setup Generator) := [.bucket 5, .bucket 142]

/-- The first resolution fails, the second attaches a service, and the third brings another one. -/
def mixedUses : List (Use Generator) := [.uniform, .resolve (choosing 9) .null annContext,
  .resolve (choosing 3) thirdVariation annContext, .bucket,
  .resolve (choosing 9) thirdVariation annContext]

def attachedScope : Scope Generator :=
  (Scope.built (Generator.seeded 7) Scope.maxTries pinnedTwice).withService (some (Service.fixed 3))

theorem Scope.moments_write_once_mixed :
    (∀ u ∈ mixedUses, u.OfBuiltinKinds) ∧
    (built (Generator.seeded 7) maxTries pinnedTwice).bucket = some 42 ∧
    (((built (Generator.seeded 7) maxTries pinnedTwice).moments mixedUses).getLast?.map fun t =>
      (t.bucket, t.service.map fun v => (v.answers 0, v.asked))) = some (some 42, some (3, 2)) ∧
    ((built (Generator.seeded 7) maxTries pinnedTwice).moments mixedUses).Pairwise Keeps ∧
    (Use.resolve (choosing 9) thirdVariation annContext).OfBuiltinKinds ∧
    (choosing 9).tests thirdVariation annContext attachedScope = [(.experiment 3, true)] ∧
    ∃ u, Tested annContext [] (attachedScope.inherit (choosing 9).service) u ∧
      u.service = some ((Service.fixed 3).after 0) ∧
      true = u.service.any fun v => Condition.matchesVariation 3 (v.answers v.asked) := by
  have hkinds : ∀ variation config,
      (Use.resolve (choosing variation) config annContext).OfBuiltinKinds := by
    intro variation config
    have hregistry : (choosing variation).registry = Registry.builtin := rfl
    exact Use.ofBuiltinKinds_of_registry hregistry annContext
  have huses : ∀ u ∈ mixedUses, u.OfBuiltinKinds := by
    simp only [mixedUses, List.forall_mem_cons]
    exact ⟨trivial, hkinds 9 _, hkinds 3 _, trivial, hkinds 9 _, List.forall_mem_nil _⟩
  have htests : (choosing 9).tests thirdVariation annContext attachedScope =
      [(.experiment 3, true)] := rfl
  obtain ⟨hbuilt, -, hpairs, hasked⟩ :=
    moments_write_once (Generator.seeded 7) maxTries pinnedTwice huses
  exact ⟨huses, (hbuilt 42).2 ⟨142, rfl, rfl⟩, by decide +kernel, hpairs, hkinds 9 _, htests,
    hasked _ _ _ (hkinds 9 _) attachedScope [] 3 true [] htests⟩

end Rollout
