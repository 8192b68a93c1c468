import Rollout.Condition.Basic

/-! # What a test takes from its scope

The shared bucket is drawn once and kept, and the experiment service is asked once for each test
that needs it. Every other built-in condition but `random` answers from the context alone. -/
namespace Rollout
set_option autoImplicit false

variable {G : Type}

/-! ## The shared bucket -/

section Bucket

variable [RandomSource G]

theorem Trial.bucket_of_some {s : Scope G} {b : Fin 100} (h : s.bucket = some b) :
    Trial.bucket s = some ⟨b, s, []⟩ := by
  simp only [Trial.bucket, h]

theorem Trial.bucket_of_none {s : Scope G} (h : s.bucket = none) :
    Trial.bucket s = (Random.drawBucket s.tries s.source).map fun r =>
      ⟨r.1, { s with source := r.2, bucket := some r.1 }, []⟩ := by
  simp only [Trial.bucket, h]

/-- Looking at the bucket leaves it in the scope and does not touch the service. -/
theorem Trial.bucket_spec {s : Scope G} {r : Run G (Fin 100)} (h : Trial.bucket s = some r) :
    r.scope.bucket = some r.value ∧ r.scope.service = s.service := by
  cases hb : s.bucket with
  | some b =>
    rw [bucket_of_some hb] at h
    cases h
    exact ⟨hb, rfl⟩
  | none =>
    rw [bucket_of_none hb] at h
    obtain ⟨p, -, rfl⟩ := Option.map_eq_some_iff.1 h
    exact ⟨rfl, rfl⟩

namespace Condition

theorem test_randomMod_eq_some_iff {range : PercentRange} {ctx : Context} {s : Scope G}
    {r : Run G Bool} : (randomMod range).test ctx s = some r ↔
      ∃ t, Trial.bucket s = some t ∧
        r = ⟨range.contains (sharedNumber t.value), t.scope, t.notes⟩ := by
  show (Trial.bucket s).map _ = some r ↔ _
  rw [Option.map_eq_some_iff]
  constructor
  · rintro ⟨t, ht, rfl⟩
    exact ⟨t, ht, rfl⟩
  · rintro ⟨t, ht, rfl⟩
    exact ⟨t, ht, rfl⟩

/-! ## The experiment service -/

theorem test_experiment_of_some {variation : UInt64} {ctx : Context} {s : Scope G}
    {service : Service} (h : s.service = some service) :
    (experiment variation).test ctx s = some ⟨matchesVariation variation service.ask.1,
      s.withService (some service.ask.2), []⟩ := by
  simp only [test, Trial.variation, h]
  rfl

theorem test_experiment_of_none {variation : UInt64} {ctx : Context} {s : Scope G}
    (h : s.service = none) :
    (experiment variation).test ctx s = some ⟨false, s, [.noService]⟩ := by
  simp only [test, h]

/-! ## What a test leaves -/

/-- All that a test can do to its scope. -/
theorem scope_of_test {c : Condition G} {ctx : Context} {s : Scope G} {r : Run G Bool}
    (h : c.test ctx s = some r) :
    r.scope = s ∨
    (∃ chance, c = random chance ∧ r.scope = s.withSource (Random.uniform s.source).2) ∨
    (∃ range t, c = randomMod range ∧ Trial.bucket s = some t ∧ r.scope = t.scope) ∨
    (∃ variation service, c = experiment variation ∧ s.service = some service ∧
      r.scope = s.withService (some service.ask.2)) ∨
    (∃ tag ask t, c = custom tag ask ∧ ask ctx s = some t ∧ r.scope = t.scope) := by
  cases c with
  | random chance =>
    cases h
    exact .inr (.inl ⟨chance, rfl, rfl⟩)
  | randomMod range =>
    obtain ⟨t, ht, rfl⟩ := test_randomMod_eq_some_iff.1 h
    exact .inr (.inr (.inl ⟨range, t, rfl, ht, rfl⟩))
  | experiment variation =>
    cases hs : s.service with
    | none =>
      rw [test_experiment_of_none hs] at h
      cases h
      exact .inl rfl
    | some service =>
      rw [test_experiment_of_some hs] at h
      cases h
      exact .inr (.inr (.inr (.inl ⟨variation, service, rfl, rfl, rfl⟩)))
  | custom tag ask =>
    obtain ⟨t, ht, rfl⟩ := Option.map_eq_some_iff.1 h
    exact .inr (.inr (.inr (.inr ⟨tag, ask, t, rfl, ht, rfl⟩)))
  | _ =>
    cases h
    exact .inl rfl

end Condition

end Bucket

end Rollout
