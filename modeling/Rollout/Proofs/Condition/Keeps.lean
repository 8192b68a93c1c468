import Rollout.Proofs.Condition.Builtin
import Rollout.Proofs.Condition.Test

/-! # What is written once

The bucket of a scope and its service are written once: a built-in test that finds them leaves them
there, but that the service has been asked, and a bucket that was not there has been drawn. -/
namespace Rollout
set_option autoImplicit false

variable {G : Type} [RandomSource G]

/-! ## Earlier and later scopes -/

/-- The service after it has been asked some more times. -/
def Service.after (v : Service) (k : ℕ) : Service := { v with asked := v.asked + k }

theorem Service.after_after (v : Service) (j k : ℕ) : (v.after j).after k = v.after (j + k) := by
  rw [after, after, after, Nat.add_assoc]

/-- The bucket and the service of `s`, if it has them, are those of `t`, which comes later, and a
bucket that has come in between was drawn. -/
structure Scope.Keeps (s t : Scope G) : Prop where
  bucket : ∀ b, s.bucket = some b → t.bucket = some b ∧ Trial.bucket t = some ⟨b, t, []⟩
  drawn : s.bucket = none → ∀ b, t.bucket = some b → ∃ w, Random.bucket? w = some b
  service : ∀ v, s.service = some v → ∃ k, t.service = some (v.after k)

namespace Scope

theorem keeps_of_bucket {s t : Scope G} (hbucket : t.bucket = s.bucket)
    (hservice : ∀ v, s.service = some v → ∃ k, t.service = some (v.after k)) : s.Keeps t where
  bucket b hb := ⟨hbucket.trans hb, Trial.bucket_of_some (hbucket.trans hb)⟩
  drawn hnone b hb := by
    rw [hbucket, hnone] at hb
    cases hb
  service := hservice

theorem keeps_of_eq {s t : Scope G} (hbucket : t.bucket = s.bucket)
    (hservice : t.service = s.service) : s.Keeps t :=
  keeps_of_bucket hbucket fun _ hv => ⟨0, hservice.trans hv⟩

theorem keeps_inherit (s : Scope G) (service : Option Service) : s.Keeps (s.inherit service) :=
  keeps_of_bucket rfl fun _ hv => ⟨0, by rw [inherit, hv]; rfl⟩

theorem Keeps.trans {s t u : Scope G} (hst : s.Keeps t) (htu : t.Keeps u) : s.Keeps u where
  bucket b hb := htu.bucket b (hst.bucket b hb).1
  drawn hnone b hb := by
    cases ht : t.bucket with
    | none => exact htu.drawn ht b hb
    | some c =>
      cases (htu.bucket c ht).1.symm.trans hb
      exact hst.drawn hnone b ht
  service v hv := by
    obtain ⟨j, hj⟩ := hst.service v hv
    obtain ⟨k, hk⟩ := htu.service _ hj
    exact ⟨j + k, by rw [hk, Service.after_after]⟩

instance : Trans (Keeps (G := G)) Keeps Keeps := ⟨Keeps.trans⟩

end Scope

/-! ## Steps -/

theorem Random.bucket?_of_drawBucket {tries : ℕ} {g : G} {r : Fin 100 × G}
    (h : drawBucket tries g = some r) : ∃ w, bucket? w = some r.1 := by
  induction tries generalizing g with
  | zero => cases h
  | succ tries ih =>
    rw [drawBucket] at h
    cases hw : bucket? (RandomSource.word g).1 with
    | none =>
      rw [hw] at h
      exact ih h
    | some b =>
      rw [hw] at h
      cases h
      exact ⟨_, hw⟩

theorem Trial.keeps_bucket {s : Scope G} {r : Run G (Fin 100)} (h : Trial.bucket s = some r) :
    s.Keeps r.scope := by
  cases hb : s.bucket with
  | some b =>
    rw [bucket_of_some hb] at h
    cases h
    exact Scope.keeps_of_eq rfl rfl
  | none =>
    obtain ⟨hbucket, hservice⟩ := bucket_spec h
    rw [bucket_of_none hb] at h
    obtain ⟨p, hp, rfl⟩ := Option.map_eq_some_iff.1 h
    constructor
    · intro b hb'
      rw [hb] at hb'
      cases hb'
    · intro _ b hb'
      cases hbucket.symm.trans hb'
      exact Random.bucket?_of_drawBucket hp
    · exact fun v hv => ⟨0, hservice.trans hv⟩

theorem Condition.IsBuiltin.keeps {c : Condition G} (hc : c.IsBuiltin) {ctx : Context}
    {s : Scope G} {r : Run G Bool} (h : c.test ctx s = some r) : s.Keeps r.scope := by
  obtain heq | ⟨chance, -, heq⟩ | ⟨range, t, -, ht, heq⟩ | ⟨variation, service, -, hs, heq⟩ |
    ⟨tag, ask, t, rfl, -, -⟩ := scope_of_test h
  · rw [heq]
    exact Scope.keeps_of_eq rfl rfl
  · rw [heq]
    exact Scope.keeps_of_eq rfl rfl
  · rw [heq]
    exact Trial.keeps_bucket ht
  · rw [heq]
    refine Scope.keeps_of_bucket rfl fun v hv => ?_
    cases hs.symm.trans hv
    exact ⟨1, rfl⟩
  · cases hc

end Rollout
