import Rollout.Proofs.Condition.Builtin
import Rollout.Proofs.Condition.Test

/-! # What a test does not read

Each built-in kind reads one part of the context or of the scope, or none. Another test is the same
whatever stands in that part, and the part of a scope that a test does not read it leaves alone. -/
namespace Rollout
set_option autoImplicit false

variable {G α : Type}

/-! ## Changes of scopes -/

/-- The scope with other random numbers to come and another shared bucket. -/
def Scope.withDraws (s : Scope G) (source : G) (bucket : Option (Fin 100)) (tries : Nat) :
    Scope G :=
  { s with source := source, bucket := bucket, tries := tries }

/-- The run with the scope that it leaves changed by `f`. -/
def Run.mapScope (f : Scope G → Scope G) (r : Run G α) : Run G α := { r with scope := f r.scope }

theorem Run.mapScope_id : mapScope (fun s => s) = (id : Run G α → Run G α) := rfl

/-! ## Conditions -/

namespace Condition

variable [RandomSource G] {c : Condition G}

/-! ### Parts of the context -/

theorem IsBuiltin.test_search (hc : c.IsBuiltin) (ctx : Context) (search : Option String) :
    c.test { ctx with search := search } = c.test ctx := by
  cases c with
  | custom tag ask => cases hc
  | _ => rfl

theorem IsBuiltin.test_user (hc : c.IsBuiltin) (husers : c.tag ≠ "USERS")
    (hmod : c.tag ≠ "USERNAME_MOD") (ctx : Context) (username : Option String)
    (hash : Option (String → Int64)) :
    c.test { ctx with username := username, hash := hash } = c.test ctx := by
  cases c with
  | custom tag ask => cases hc
  | users names => exact absurd rfl husers
  | usernameMod range => exact absurd rfl hmod
  | _ => rfl

theorem IsBuiltin.test_groups (hc : c.IsBuiltin) (hgroups : c.tag ≠ "GROUPS") (ctx : Context)
    (groups : Option (List String)) : c.test { ctx with groups := groups } = c.test ctx := by
  cases c with
  | custom tag ask => cases hc
  | groups names => exact absurd rfl hgroups
  | _ => rfl

/-- Of the context a test reads no more than the user, the groups and the buckets of names. -/
theorem IsBuiltin.test_congr (hc : c.IsBuiltin) {ctx ctx' : Context}
    (huser : ctx'.user? = ctx.user?) (hgroups : ctx'.memberships = ctx.memberships)
    (hbucket : ctx'.bucket = ctx.bucket) : c.test ctx' = c.test ctx := by
  cases c with
  | custom tag ask => cases hc
  | users names => simp only [test, huser]
  | groups names => simp only [test, hgroups]
  | usernameMod range => simp only [test, inRange, huser, hbucket]
  | _ => rfl

/-! ### Parts of the scope -/

/-- A test goes on alike if `ctx` is changed to `ctx'` and the scope by `f`, and leaves its scope
changed by `f`. -/
def Ignores (ctx ctx' : Context) (f : Scope G → Scope G) (c : Condition G) : Prop :=
  ∀ s, c.test ctx' (f s) = (c.test ctx s).map (Run.mapScope f)

theorem ignores_of_test_eq {ctx ctx' : Context} (h : c.test ctx' = c.test ctx) :
    c.Ignores ctx ctx' fun s => s := by
  intro s
  rw [Run.mapScope_id, Option.map_id, h]
  rfl

theorem IsBuiltin.ignores_service (hc : c.IsBuiltin) (hexperiment : c.tag ≠ "GOOGLE_EXPERIMENTS")
    (ctx : Context) (service : Option Service) :
    c.Ignores ctx ctx fun s => s.withService service := by
  intro s
  cases c with
  | custom tag ask => cases hc
  | experiment variation => exact absurd rfl hexperiment
  | randomMod range =>
    show (Trial.bucket (s.withService service)).map _ = ((Trial.bucket s).map _).map _
    cases hb : s.bucket with
    | some b =>
      rw [Trial.bucket_of_some hb, Trial.bucket_of_some (s := s.withService service) hb]
      rfl
    | none =>
      rw [Trial.bucket_of_none hb, Trial.bucket_of_none (s := s.withService service) hb]
      simp only [Option.map_map]
      rfl
  | _ => rfl

theorem IsBuiltin.ignores_draws (hc : c.IsBuiltin) (hrandom : c.tag ≠ "RANDOM")
    (hmod : c.tag ≠ "RANDOM_MOD") (ctx : Context) (source : G) (bucket : Option (Fin 100))
    (tries : Nat) : c.Ignores ctx ctx fun s => s.withDraws source bucket tries := by
  intro s
  cases c with
  | custom tag ask => cases hc
  | random chance => exact absurd rfl hrandom
  | randomMod range => exact absurd rfl hmod
  | experiment variation =>
    cases hs : s.service with
    | none =>
      rw [test_experiment_of_none hs,
        test_experiment_of_none (s := s.withDraws source bucket tries) hs]
      rfl
    | some service =>
      rw [test_experiment_of_some hs,
        test_experiment_of_some (s := s.withDraws source bucket tries) hs]
      rfl
  | _ => rfl

/-- Only the shared bucket can fail to come. -/
theorem IsBuiltin.test_isSome (hc : c.IsBuiltin) (hmod : c.tag ≠ "RANDOM_MOD") (ctx : Context)
    (s : Scope G) : (c.test ctx s).isSome := by
  cases c with
  | custom tag ask => cases hc
  | randomMod range => exact absurd rfl hmod
  | experiment variation =>
    cases hs : s.service with
    | none => rw [test_experiment_of_none hs]; rfl
    | some service => rw [test_experiment_of_some hs]; rfl
  | _ => rfl

end Condition

end Rollout
