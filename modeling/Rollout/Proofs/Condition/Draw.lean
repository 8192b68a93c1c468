import Rollout.Proofs.Condition.Unread

/-! # What a test draws

The test of a `random` condition takes 64 bits from the source of random numbers, and the first test
of a `randomMod` condition draws the shared bucket from it. No other test of a built-in kind touches
the source, and no answer rests on more of it than the test has drawn. -/
namespace Rollout
set_option autoImplicit false

variable {G : Type}

/-! ## Draws -/

/-- One request to the source: for 64 bits, or for the shared bucket. -/
inductive Draw where
  | wide
  | bucket
  deriving DecidableEq, Repr

/-- The source after a draw; none if the bucket does not come. -/
def Draw.next [RandomSource G] (tries : ℕ) (g : G) : Draw → Option G
  | wide => some (RandomSource.wide g).2
  | bucket => (Random.drawBucket tries g).map Prod.snd

namespace Condition

def isRandom : Condition G → Bool
  | random _ => true
  | _ => false

def isRandomMod : Condition G → Bool
  | randomMod _ => true
  | _ => false

/-- The draws of one test; `drawn` says whether there is a bucket already. -/
def draws (drawn : Bool) : Condition G → List Draw
  | random _ => [.wide]
  | randomMod _ => if drawn then [] else [.bucket]
  | _ => []

def allDraws : Bool → List (Condition G) → List Draw
  | _, [] => []
  | drawn, c :: rest => c.draws drawn ++ allDraws (drawn || c.isRandomMod) rest

/-! ## How many -/

theorem count_wide_draws (drawn : Bool) (c : Condition G) :
    (c.draws drawn).count .wide = if c.isRandom then 1 else 0 := by
  cases c with
  | randomMod range => cases drawn <;> rfl
  | _ => rfl

theorem count_bucket_draws (drawn : Bool) (c : Condition G) :
    (c.draws drawn).count .bucket = if !drawn && c.isRandomMod then 1 else 0 := by
  cases c with
  | randomMod range => cases drawn <;> rfl
  | _ => cases drawn <;> rfl

theorem count_wide_allDraws (drawn : Bool) (cs : List (Condition G)) :
    (allDraws drawn cs).count .wide = cs.countP isRandom := by
  induction cs generalizing drawn with
  | nil => rfl
  | cons c rest ih =>
    rw [allDraws, List.count_append, count_wide_draws, ih, List.countP_cons]
    omega

theorem count_bucket_allDraws (drawn : Bool) (cs : List (Condition G)) :
    (allDraws drawn cs).count .bucket = if !drawn && cs.any isRandomMod then 1 else 0 := by
  induction cs generalizing drawn with
  | nil => simp [allDraws]
  | cons c rest ih =>
    rw [allDraws, List.count_append, count_bucket_draws, ih, List.any_cons]
    cases drawn <;> cases c.isRandomMod <;> simp

/-! ## Tests -/

variable [RandomSource G]

/-- All that a test takes from the source and leaves in the scope, and what its answer rests on. -/
def Takes (ctx : Context) (s : Scope G) (r : Run G Bool) : Condition G → Prop
  | random chance => r.scope = s.withSource (RandomSource.wide s.source).2 ∧
      r.value = decide (Random.uniformOf (RandomSource.wide s.source).1 < chance.value)
  | randomMod range => ∃ b g, r.scope = { s with source := g, bucket := some b } ∧
      r.value = range.contains (sharedNumber b) ∧
      ((s.bucket = some b ∧ g = s.source) ∨
        (s.bucket = none ∧ Random.drawBucket s.tries s.source = some (b, g)))
  | c => r.scope.source = s.source ∧ r.scope.bucket = s.bucket ∧ r.scope.tries = s.tries ∧
      ∀ source bucket tries,
        (c.test ctx (s.withDraws source bucket tries)).map Run.value = some r.value

theorem takes_randomMod {range : PercentRange} {ctx : Context} {s : Scope G} {r : Run G Bool}
    (h : (randomMod range).test ctx s = some r) : (randomMod range).Takes ctx s r := by
  obtain ⟨t, ht, rfl⟩ := test_randomMod_eq_some_iff.1 h
  cases hb : s.bucket with
  | some b =>
    rw [Trial.bucket_of_some hb] at ht
    cases ht
    have hscope : s = { s with source := s.source, bucket := some b } := by rw [← hb]
    exact ⟨b, s.source, hscope, rfl, .inl ⟨hb, rfl⟩⟩
  | none =>
    rw [Trial.bucket_of_none hb] at ht
    obtain ⟨⟨b, g⟩, hdraw, rfl⟩ := Option.map_eq_some_iff.1 ht
    exact ⟨b, g, rfl, rfl, .inr ⟨hb, hdraw⟩⟩

theorem IsBuiltin.value_withDraws {c : Condition G} (hc : c.IsBuiltin) (hrandom : c.tag ≠ "RANDOM")
    (hmod : c.tag ≠ "RANDOM_MOD") {ctx : Context} {s : Scope G} {r : Run G Bool}
    (h : c.test ctx s = some r) (source : G) (bucket : Option (Fin 100)) (tries : ℕ) :
    (c.test ctx (s.withDraws source bucket tries)).map Run.value = some r.value := by
  have hignores := hc.ignores_draws hrandom hmod ctx source bucket tries s
  rw [hignores, h]
  rfl

theorem IsBuiltin.takes {c : Condition G} (hc : c.IsBuiltin) {ctx : Context} {s : Scope G}
    {r : Run G Bool} (h : c.test ctx s = some r) : c.Takes ctx s r := by
  cases c with
  | custom tag ask => cases hc
  | random chance =>
    cases h
    exact ⟨rfl, rfl⟩
  | randomMod range => exact takes_randomMod h
  | experiment variation =>
    have hvalue := hc.value_withDraws (by simp [tag]) (by simp [tag]) h
    cases hs : s.service with
    | none =>
      rw [test_experiment_of_none hs] at h
      cases h
      exact ⟨rfl, rfl, rfl, hvalue⟩
    | some service =>
      rw [test_experiment_of_some hs] at h
      cases h
      exact ⟨rfl, rfl, rfl, hvalue⟩
  | _ =>
    cases h
    exact ⟨rfl, rfl, rfl, fun _ _ _ => rfl⟩

/-- The source moves on by the draws of the test, the bucket is there from the first test that looks
at it, and the number of tries stays. -/
theorem Takes.scope {c : Condition G} {ctx : Context} {s : Scope G} {r : Run G Bool}
    (h : c.Takes ctx s r) :
    (c.draws s.bucket.isSome).foldlM (Draw.next s.tries) s.source = some r.scope.source ∧
    r.scope.bucket.isSome = (s.bucket.isSome || c.isRandomMod) ∧ r.scope.tries = s.tries := by
  cases c with
  | random chance =>
    obtain ⟨hscope, -⟩ := h
    rw [hscope]
    exact ⟨rfl, (Bool.or_false _).symm, rfl⟩
  | randomMod range =>
    obtain ⟨b, g, hscope, -, ⟨hb, rfl⟩ | ⟨hb, hdraw⟩⟩ := h
    · rw [hscope, hb]
      exact ⟨rfl, rfl, rfl⟩
    · rw [hscope, hb]
      have hnext : Draw.next s.tries s.source .bucket = some g := by
        rw [Draw.next, hdraw]
        rfl
      refine ⟨?_, rfl, rfl⟩
      show (Draw.next s.tries s.source .bucket).bind _ = _
      rw [hnext]
      rfl
  | _ =>
    obtain ⟨hsource, hbucket, htries, -⟩ := h
    rw [hsource, hbucket]
    exact ⟨rfl, (Bool.or_false _).symm, htries⟩

end Condition

end Rollout
