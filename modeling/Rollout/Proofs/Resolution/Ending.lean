import Rollout.Proofs.Condition.Unread
import Rollout.Proofs.Random.Stepping
import Rollout.Proofs.Resolution.Exclusive

/-! # Resolutions that end

The shared bucket is drawn by rejection, so a resolution ends if an accepted word comes. From numbers
with a fixed step it comes within `2 ^ 30` words or never, and no test of a built-in kind changes
which of the two it is. -/
namespace Rollout
set_option autoImplicit false

open Generator (Stalls stepping)

/-! ## Scopes in which the bucket comes -/

/-- The bucket is there, or the source is a number with a fixed step that comes to an accepted word
within the tries. -/
def Scope.BucketComes (s : Scope Generator) : Prop :=
  s.bucket.isSome ∨
    ∃ first step, s.source = stepping first step ∧ ¬Stalls first step ∧ 2 ^ 30 ≤ s.tries

theorem Trial.exists_bucket {s : Scope Generator} (h : s.BucketComes) :
    ∃ r, Trial.bucket s = some r ∧ r.scope.BucketComes := by
  have hsome : (Trial.bucket s).isSome := by
    cases hb : s.bucket with
    | some b =>
      rw [bucket_of_some hb]
      rfl
    | none =>
      rcases h with h | ⟨first, step, hsource, hstalls, htries⟩
      · simp [hb] at h
      · obtain ⟨n, hn, hword⟩ := Generator.exists_wordAt_isSome hstalls
        rw [bucket_of_none hb, Option.isSome_map, hsource]
        exact Random.drawBucket_isSome_iff.2 ⟨n, by omega, hword⟩
  obtain ⟨r, hr⟩ := Option.isSome_iff_exists.1 hsome
  refine ⟨r, hr, .inl ?_⟩
  rw [(bucket_spec hr).1]
  rfl

theorem Trial.bucket_eq_none {s : Scope Generator} {first step : UInt64}
    (hsource : s.source = stepping first step) (hstalls : Stalls first step)
    (hb : s.bucket = none) : Trial.bucket s = none := by
  rw [bucket_of_none hb, hsource, hstalls.drawBucket_eq_none]
  rfl

/-! ## Tests that end -/

/-- A test ends where the bucket comes, and leaves a scope in which it comes. -/
def Condition.Ends (c : Condition Generator) : Prop :=
  ∀ ctx s, s.BucketComes → ∃ r, c.test ctx s = some r ∧ r.scope.BucketComes

theorem Condition.IsBuiltin.ends {c : Condition Generator} (hc : c.IsBuiltin) : c.Ends := by
  intro ctx s hs
  cases c with
  | custom tag ask => cases hc
  | randomMod range =>
    obtain ⟨t, ht, hcomes⟩ := Trial.exists_bucket hs
    exact ⟨_, test_randomMod_eq_some_iff.2 ⟨t, ht, rfl⟩, hcomes⟩
  | random chance =>
    refine ⟨_, rfl, ?_⟩
    rcases hs with hs | ⟨first, step, hsource, hstalls, htries⟩
    · exact .inl hs
    · -- A uniform draw takes the next number, too.
      refine .inr ⟨first + step, step, ?_, Generator.stalls_add.not.2 hstalls, htries⟩
      show (Random.uniform s.source).2 = _
      rw [hsource]
      rfl
  | experiment variation =>
    cases hservice : s.service with
    | none => exact ⟨_, test_experiment_of_none hservice, hs⟩
    | some service => exact ⟨_, test_experiment_of_some hservice, hs⟩
  | _ => exact ⟨_, rfl, hs⟩

/-! ## Resolutions -/

theorem Engine.resolveIn_isSome_of_ends {e : Engine Generator} {config : Document}
    (hends : ∀ vs, e.parse config = .ok vs → ∀ c ∈ vs.flatMap Variant.conditions,
      c.IsBuiltin ∨ c.Ends) (ctx : Context) {s : Scope Generator} (hs : s.BucketComes) :
    (e.resolveIn config ctx s).isSome := by
  cases hparse : e.parse config with
  | error fault =>
    rw [resolveIn_of_error hparse]
    rfl
  | ok vs =>
    have hends' : ∀ c ∈ vs.flatMap Variant.conditions, c.Ends :=
      fun c hc => (hends vs hparse c hc).elim Condition.IsBuiltin.ends id
    refine resolveIn_isSome hparse fun c hc s' hreach => ?_
    -- Every test leaves a scope in which the next one ends.
    have hcomes : s'.BucketComes := by
      refine hreach.keeps (fun d hd t r hr ht => ?_) hs
      obtain ⟨r', hr', hcomes⟩ := hends' d hd ctx t ht
      cases hr.symm.trans hr'
      exact hcomes
    obtain ⟨r, hr, -⟩ := hends' c hc ctx s' hcomes
    rw [hr]
    rfl

/-- A resolution does not end that needs the bucket first, if it does not come. -/
theorem Engine.resolveIn_eq_none {e : Engine Generator} {config : Document}
    {v : Variant Generator} {rest : List (Variant Generator)}
    (hparse : e.parse config = .ok (v :: rest)) {ctx : Context}
    (hforced : v.isForced (e.requested ctx) = false) {range : PercentRange}
    {cs : List (Condition Generator)} (hconditions : v.conditions = .randomMod range :: cs)
    {s : Scope Generator} (hbucket : Trial.bucket (s.inherit e.service) = none) :
    e.resolveIn config ctx s = none := by
  rw [Option.eq_none_iff_forall_ne_some]
  intro run hrun
  obtain ⟨u, hu, -⟩ := (resolveIn_eq_some_iff hparse).1 hrun
  obtain ⟨t, -, ht, -⟩ := Variant.activations_cons_eq_some_iff.1 hu
  obtain ⟨w, hw, -⟩ := (Variant.activation_eq_some_iff hforced).1 ht
  rw [hconditions] at hw
  obtain ⟨x, hx, -⟩ := Operator.evaluate_cons_eq_some_iff.1 hw
  obtain ⟨y, hy, -⟩ := Condition.test_randomMod_eq_some_iff.1 hx
  rw [hbucket] at hy
  cases hy

/-- From numbers with a fixed step the bucket comes exactly if the step is no multiple of `2 ^ 30` or
the first word is accepted. Then it comes within `2 ^ 30` words, and every resolution ends whose tests
of custom kinds end; else no resolution ends that needs the bucket first, in a scope without one. -/
theorem stepping_bucket_comes_iff (first step : UInt64) :
    ((∃ tries, (Random.drawBucket tries (stepping first step)).isSome) ↔
      ¬(2 ^ 30 ∣ step.toNat ∧ Random.bucket? first.toUInt32 = none)) ∧
    (¬(2 ^ 30 ∣ step.toNat ∧ Random.bucket? first.toUInt32 = none) → ∀ s : Scope Generator,
      s.source = stepping first step → 2 ^ 30 ≤ s.tries →
      (∃ r, Trial.bucket s = some r ∧ r.value.val < 100) ∧
      ∀ (e : Engine Generator) (config : Document) (ctx : Context),
        (∀ vs, e.parse config = .ok vs → ∀ c ∈ vs.flatMap Variant.conditions,
          c.IsBuiltin ∨ c.Ends) → (e.resolveIn config ctx s).isSome) ∧
    (2 ^ 30 ∣ step.toNat ∧ Random.bucket? first.toUInt32 = none → ∀ s : Scope Generator,
      s.source = stepping first step → s.bucket = none →
      ∀ (e : Engine Generator) (config : Document) (ctx : Context) (v : Variant Generator)
        (rest : List (Variant Generator)) (range : PercentRange) (cs : List (Condition Generator)),
        e.parse config = .ok (v :: rest) → v.isForced (e.requested ctx) = false →
        v.conditions = .randomMod range :: cs → e.resolveIn config ctx s = none) := by
  refine ⟨⟨?_, fun h => ?_⟩, fun h s hsource htries => ⟨?_, fun e config ctx hends => ?_⟩, ?_⟩
  · rintro ⟨tries, hsome⟩ hstalls
    rw [Generator.Stalls.drawBucket_eq_none hstalls] at hsome
    cases hsome
  · obtain ⟨n, hn, hword⟩ := Generator.exists_wordAt_isSome h
    exact ⟨2 ^ 30, Random.drawBucket_isSome_iff.2 ⟨n, hn, hword⟩⟩
  · obtain ⟨r, hr, -⟩ := Trial.exists_bucket (.inr ⟨first, step, hsource, h, htries⟩)
    exact ⟨r, hr, r.value.isLt⟩
  · exact Engine.resolveIn_isSome_of_ends hends ctx (.inr ⟨first, step, hsource, h, htries⟩)
  · intro h s hsource hb e config ctx v rest range cs hparse hforced hconditions
    exact Engine.resolveIn_eq_none hparse hforced hconditions
      (Trial.bucket_eq_none (s := s.inherit e.service) hsource h hb)

/-! ## Examples -/

/-- A scope whose random numbers have a fixed step. -/
def steppingScope (first step : UInt64) (tries : ℕ) : Scope Generator :=
  ⟨stepping first step, none, none, tries⟩

/-- All users whatever their bucket, in one entry that needs it. -/
def everybody : Document := .list [share "all" (.percent 0) (.percent 100)]

/-- The first word is rejected and the next one is accepted. -/
theorem stepping_bucket_comes_iff_next :
    Random.bucket? (42949672 : UInt64).toUInt32 = none ∧
    ¬(2 ^ 30 ∣ (1 : UInt64).toNat ∧ Random.bucket? (42949672 : UInt64).toUInt32 = none) ∧
    ((Engine.standard : Engine Generator).resolveIn everybody Context.empty
      (steppingScope 42949672 1 Scope.maxTries)).isSome := by
  have hrejected : Random.bucket? (42949672 : UInt64).toUInt32 = none := by decide
  have hstep : ¬(2 ^ 30 ∣ (1 : UInt64).toNat ∧
      Random.bucket? (42949672 : UInt64).toUInt32 = none) := by decide
  have htries : 2 ^ 30 ≤ Scope.maxTries := by decide
  refine ⟨hrejected, hstep, ?_⟩
  refine ((stepping_bucket_comes_iff 42949672 1).2.1 hstep _ rfl htries).2 _ _ _ ?_
  intro vs hparse c hc
  exact .inl ((Registry.ofBuiltinKinds_of_parseAll hparse).isBuiltin hparse c hc)

/-- A number that is always the same and rejected: no number of tries is enough. -/
theorem constant_source_stalls :
    (∀ tries, Random.drawBucket tries (stepping 42949672 0) = none) ∧
    ∀ tries, (Engine.standard : Engine Generator).resolveIn everybody Context.empty
      (steppingScope 42949672 0 tries) = none := by
  have hstalls : Stalls 42949672 0 := ⟨by decide, by decide⟩
  constructor
  · exact hstalls.drawBucket_eq_none
  · intro tries
    have hok : ((Engine.standard : Engine Generator).parse everybody).isOk = true := by
      decide +kernel
    obtain ⟨vs, hparse⟩ := Fault.exists_of_isOk hok
    have hkinds := Registry.ofBuiltinKinds_of_parseAll hparse
    obtain ⟨v, hv, hentry⟩ := Engine.exists_parse_of_getElem? hparse (i := 0) rfl
    obtain ⟨rest, rfl⟩ : ∃ rest, vs = v :: rest := by
      cases vs with
      | nil => cases hv
      | cons w rest =>
        cases hv
        exact ⟨rest, rfl⟩
    have hmem : Kind.randomMod ∈ (Registry.builtin : Registry Generator).kinds := by
      simp [Registry.kinds_builtin]
    obtain ⟨range, hconditions, -⟩ := Variant.conditions_of_hasOneRange hkinds
      List.mem_cons_self ⟨_, rfl, rfl, rfl, rfl⟩ hmem rfl (fun _ => rfl) hentry
    have hforced :
        v.isForced ((Engine.standard : Engine Generator).requested Context.empty) = false := by
      have hnobody : (Engine.standard : Engine Generator).requested Context.empty = [] := rfl
      simp [Variant.isForced, hnobody]
    exact Engine.resolveIn_eq_none hparse hforced hconditions
      (Trial.bucket_eq_none rfl hstalls rfl)

end Rollout
