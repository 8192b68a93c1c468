import Rollout.Proofs.Condition.Builtin
import Rollout.Proofs.Condition.Test
import Rollout.Proofs.Resolution.Answers
import Rollout.Proofs.Variant.Rearranged

/-! # Entries that do not depend on each other

Without draws of their own, conditions share only the bucket and the experiment service. Whoever
looks at the bucket first draws it, and the draw that is still to come is the one that every scope
of the run shows. An entry is therefore active or not by itself, wherever it stands. -/
namespace Rollout
set_option autoImplicit false

variable {G : Type}

/-! ## Conditions without a draw of their own -/

namespace Condition

/-- A condition of a built-in kind that makes no draw of its own. -/
def IsSteady (c : Condition G) : Prop := c.IsBuiltin ∧ c.tag ≠ "RANDOM"

/-- Whether a steady condition holds where the shared bucket is `d` and the service always chooses
`chosen`, if there is one. -/
def holdsAt (ctx : Context) (d : Fin 100) (chosen : Option Int64) : Condition G → Bool
  | always => true
  | never => false
  | users names => ctx.user?.any fun name => names.contains name
  | groups names => ctx.memberships.any fun group => names.contains group
  | randomMod range => range.lower.value ≤ (d.val : ℚ) && (d.val : ℚ) < range.upper.value
  | usernameMod range => inRange range ctx
  | experiment variation => chosen.any (matchesVariation variation)
  | random _ => false
  | custom _ _ => false

end Condition

/-- What becomes of an entry by itself. -/
def Variant.settled (requested : List String) (ctx : Context) (d : Fin 100)
    (chosen : Option Int64) (v : Variant G) : Outcome :=
  v.outcome (v.activationBy requested (Condition.holdsAt ctx d chosen))

/-- The bucket that a scope gives now or when it is asked for is `d`, and its service always chooses
`chosen`, if there is one. -/
structure Scope.Shows [RandomSource G] (d : Fin 100) (chosen : Option Int64) (s : Scope G) :
    Prop where
  bucket : (Trial.bucket s).map Run.value = some d
  service : s.service.map Service.answers = chosen.map fun v _ => v

section Steady

variable [RandomSource G] {d : Fin 100} {chosen : Option Int64}

theorem Trial.map_value_bucket_of_scope {s t : Scope G} (hb : t.bucket = s.bucket)
    (htries : t.tries = s.tries) (hsource : t.source = s.source) :
    (Trial.bucket t).map Run.value = (Trial.bucket s).map Run.value := by
  cases h : s.bucket with
  | some b => rw [bucket_of_some h, bucket_of_some (hb.trans h)]; rfl
  | none =>
    rw [bucket_of_none h, bucket_of_none (hb.trans h), htries, hsource]
    simp [Function.comp_def]

/-- A scope shows the same after each test of a steady condition. -/
theorem Condition.IsSteady.answers {c : Condition G} (hc : c.IsSteady) (ctx : Context) :
    c.Answers ctx (Scope.Shows d chosen) (c.holdsAt ctx d chosen) := by
  intro s hs
  cases c with
  | custom tag ask => exact absurd hc.1 id
  | random chance => exact absurd rfl hc.2
  | randomMod range =>
    -- Drawn here or before, the bucket is in the scope from now on.
    obtain ⟨t, ht, rfl⟩ := Option.map_eq_some_iff.1 hs.bucket
    obtain ⟨hb, hservice⟩ := Trial.bucket_spec ht
    refine ⟨_, test_randomMod_eq_some_iff.2 ⟨t, ht, rfl⟩, ?_, ⟨?_, ?_⟩⟩
    · rw [Bool.eq_iff_iff, PercentRange.contains_iff, value_sharedNumber]
      simp [holdsAt, PercentRange.interval]
    · show (Trial.bucket t.scope).map Run.value = _
      rw [Trial.bucket_of_some hb]
      rfl
    · rw [← hs.service, ← hservice]
  | experiment variation =>
    cases hservice : s.service with
    | none =>
      have hchosen : chosen = none := by
        have h := hs.service
        rw [hservice] at h
        exact Option.map_eq_none_iff.1 h.symm
      exact ⟨_, test_experiment_of_none hservice, by simp [holdsAt, hchosen], hs⟩
    | some service =>
      obtain ⟨v, hv, hanswers⟩ : ∃ v, chosen = some v ∧ (fun _ => v) = service.answers := by
        have h := hs.service
        rw [hservice] at h
        exact Option.map_eq_some_iff.1 h.symm
      refine ⟨_, test_experiment_of_some hservice, ?_, ⟨?_, ?_⟩⟩
      · simp [holdsAt, hv, Service.ask, ← hanswers]
      · rw [← hs.bucket]
        exact Trial.map_value_bucket_of_scope rfl rfl rfl
      · rw [← hs.service, hservice]
        rfl
  | _ => exact ⟨_, rfl, rfl, hs⟩

end Steady

/-! ## Every resolution -/

theorem Variant.settled_of_sameTests {r : Registry G} {x y : Document} {v w : Variant G}
    (hv : parse r x = .ok v) (hw : parse r y = .ok w) (h : x.SameTests y)
    (requested : List String) (ctx : Context) (d : Fin 100) (chosen : Option Int64) :
    v.settled requested ctx d chosen = w.settled requested ctx d chosen := by
  obtain ⟨hid, hforcible, hop, hperm⟩ := same_of_sameTests hv hw h
  have hanswers := w.operator.combine_perm (hperm.map (Condition.holdsAt ctx d chosen))
  have hforced : v.isForced requested = w.isForced requested := by
    rw [isForced, isForced, hid, hforcible]
  rw [settled, settled, outcome, outcome, activationBy, activationBy, hid, hforced, hop, hanswers]

/-- Each tag of a configuration stands for a built-in kind that makes no draw of its own. -/
def Registry.OfSteadyKinds (r : Registry G) (config : Document) : Prop :=
  r.OfBuiltinKinds config ∧
    ∀ spec ∈ config.conditionSpecs, spec.member? "type" ≠ some (.text "RANDOM")

theorem Registry.OfSteadyKinds.isSteady {r : Registry G} {config : Document}
    (h : r.OfSteadyKinds config) {vs : List (Variant G)}
    (hparse : Variant.parseAll r config = .ok vs) :
    ∀ c ∈ vs.flatMap Variant.conditions, c.IsSteady := by
  intro c hc
  obtain ⟨hbuiltin, spec, hspec, htag⟩ := h.1.exists_spec hparse c hc
  refine ⟨hbuiltin, fun hrandom => h.2 spec hspec ?_⟩
  rw [htag, hrandom]

/-- Entries that rearrange entries of a configuration make up such a configuration again. -/
theorem exists_parseAll_of_rearranges {r : Registry G} {xs ys : List Document}
    {vs : List (Variant G)} (hvs : Variant.parseAll r (.list xs) = .ok vs)
    (hkinds : r.OfSteadyKinds (.list xs)) (h : ∀ y ∈ ys, ∃ x ∈ xs, x.Rearranges y) :
    ∃ ws, Variant.parseAll r (.list ys) = .ok ws ∧ r.OfSteadyKinds (.list ys) := by
  have hparse : ∀ y ∈ ys, ∃ w, Variant.parse r y = .ok w := by
    intro y hy
    obtain ⟨x, hx, hxy⟩ := h y hy
    obtain ⟨v, hv⟩ := Fault.exists_mapM_eq_ok_iff.1 ⟨vs, hvs⟩ x hx
    exact Variant.exists_parse_of_rearranges hv hxy
  have hsub : (Document.list ys).conditionSpecs ⊆ (Document.list xs).conditionSpecs := by
    refine Document.conditionSpecs_subset fun y hy => ?_
    obtain ⟨x, hx, hxy⟩ := h y hy
    exact ⟨x, hx, hxy.toSameTests⟩
  obtain ⟨ws, hws⟩ := Fault.exists_mapM_eq_ok_iff.2 hparse
  exact ⟨ws, hws, fun spec hspec => hkinds.1 spec (hsub hspec),
    fun spec hspec => hkinds.2 spec (hsub hspec)⟩

section Resolutions

variable [RandomSource G] {e : Engine G} {s : Scope G} {d : Fin 100} {chosen : Option Int64}
  {xs : List Document} {vs : List (Variant G)}

theorem outcomes_settled (ctx : Context) (hvs : e.parse (.list xs) = .ok vs)
    (hxs : e.registry.OfSteadyKinds (.list xs)) (hs : (s.inherit e.service).Shows d chosen) :
    ∃ run r, e.resolveIn (.list xs) ctx s = some run ∧ run.value = .ok r ∧
      r.outcomes = vs.map (Variant.settled (e.requested ctx) ctx d chosen) := by
  obtain ⟨u, hu, hvalue, -⟩ := Variant.activations_of_answers (e.requested ctx)
    (fun c hc => (hxs.isSteady hvs c hc).answers ctx) hs
  refine ⟨_, _, (Engine.resolveIn_eq_some_iff hvs).2 ⟨u, hu, rfl⟩, rfl, ?_⟩
  rw [Engine.resolution, hvalue, List.zipWith_map_right, List.zipWith_self]
  rfl

/-- Where nothing draws for itself, what becomes of an entry is settled by the entry, the context,
the requested ids, the bucket and the variation alone, so it is the same in every configuration that
holds the entry, with its conditions in any order. -/
theorem resolveIn_settled (ctx : Context) (hvs : e.parse (.list xs) = .ok vs)
    (hxs : e.registry.OfSteadyKinds (.list xs)) (hd : (Trial.bucket s).map Run.value = some d)
    (hchosen : (s.inherit e.service).service.map Service.answers = chosen.map fun v _ => v) :
    ∃ run r, e.resolveIn (.list xs) ctx s = some run ∧ run.value = .ok r ∧
      r.outcomes = vs.map (Variant.settled (e.requested ctx) ctx d chosen) ∧
      (∀ ys, (∀ y ∈ ys, ∃ x ∈ xs, x.Rearranges y) →
        ∃ ws, e.parse (.list ys) = .ok ws ∧ e.registry.OfSteadyKinds (.list ys)) ∧
      (∀ ys ws, e.parse (.list ys) = .ok ws → e.registry.OfSteadyKinds (.list ys) →
        ∃ run' r', e.resolveIn (.list ys) ctx s = some run' ∧ run'.value = .ok r' ∧
          ∀ (i j : ℕ) (x y : Document), xs[i]? = some x → ys[j]? = some y → x.SameTests y →
            ∃ o, r.outcomes[i]? = some o ∧ r'.outcomes[j]? = some o) := by
  have hs : (s.inherit e.service).Shows d chosen := by
    refine ⟨?_, hchosen⟩
    rw [← hd]
    exact Trial.map_value_bucket_of_scope rfl rfl rfl
  obtain ⟨run, r, hrun, hr, houtcomes⟩ := outcomes_settled ctx hvs hxs hs
  refine ⟨run, r, hrun, hr, houtcomes,
    fun ys h => exists_parseAll_of_rearranges hvs hxs h, fun ys ws hws hys => ?_⟩
  obtain ⟨run', r', hrun', hr', houtcomes'⟩ := outcomes_settled ctx hws hys hs
  refine ⟨run', r', hrun', hr', fun i j x y hx hy hsame => ?_⟩
  obtain ⟨v, hv, hparse⟩ := rel_of_getElem? (Fault.mapM_eq_ok_iff.1 hvs) hx
  obtain ⟨w, hw, hparse'⟩ := rel_of_getElem? (Fault.mapM_eq_ok_iff.1 hws) hy
  have heq := Variant.settled_of_sameTests hparse hparse' hsame (e.requested ctx) ctx d chosen
  refine ⟨v.settled (e.requested ctx) ctx d chosen, ?_, ?_⟩
  · rw [houtcomes, List.getElem?_map, hv]
    rfl
  · rw [houtcomes', List.getElem?_map, hw, heq]
    rfl

end Resolutions

def lowerHalf : Document := .object [("type", .text "RANDOM_MOD"),
  ("from", .number (.percent 0)), ("to", .number (.percent 50))]

def secondVariation : Document := .object [("type", .text "GOOGLE_EXPERIMENTS"),
  ("variation", .number (.percent 2))]

/-- An entry that is active if all of its conditions hold. -/
def pageEntry (id : String) (conditions : List Document) : Document := .object [("id", .text id),
  ("conditions", .list conditions), ("mods", .object [("page", .text id)]),
  ("conditionalOperator", .text "AND")]

def pages : List Document :=
  [pageEntry "a" [lowerHalf, secondVariation], pageEntry "b" [secondVariation]]

def rearrangedPages : List Document :=
  [pageEntry "b" [secondVariation], pageEntry "a" [secondVariation, lowerHalf]]

/-- An engine whose service always chooses the second variation. -/
def pageEngine : Engine Generator := ⟨Registry.builtin, none, some (Service.fixed 2)⟩

def pageScope : Scope Generator := Scope.fresh (Generator.stepping 1450000000 7)

theorem resolveIn_settled_pages :
    (∃ vs, pageEngine.parse (.list pages) = .ok vs) ∧
    pageEngine.registry.OfSteadyKinds (.list pages) ∧
    (Trial.bucket pageScope).map Run.value = some 33 ∧
    (pageScope.inherit pageEngine.service).service.map Service.answers =
      (some 2).map (fun v _ => v) ∧
    ∃ run r run' r', pageEngine.resolveIn (.list pages) Context.empty pageScope = some run ∧
      run.value = .ok r ∧
      pageEngine.resolveIn (.list rearrangedPages) Context.empty pageScope = some run' ∧
      run'.value = .ok r' ∧ ∃ o, r.outcomes[0]? = some o ∧ r'.outcomes[1]? = some o := by
  have hok : (pageEngine.parse (.list pages)).isOk = true := by
    decide +kernel
  have hd : (Trial.bucket pageScope).map Run.value = some 33 := by
    decide +kernel
  have hspecs : (Document.list pages).conditionSpecs =
      [lowerHalf, secondVariation, secondVariation] := rfl
  obtain ⟨vs, hvs⟩ := Fault.exists_of_isOk hok
  have hsteady : pageEngine.registry.OfSteadyKinds (.list pages) := by
    refine ⟨Registry.ofBuiltinKinds_of_parseAll hvs, ?_⟩
    rw [hspecs]
    simp [lowerHalf, secondVariation, Document.member?, Entries.find?]
  have hchosen : (pageScope.inherit pageEngine.service).service.map Service.answers =
      (some 2).map fun v _ => v := rfl
  have hsame : (pageEntry "a" [lowerHalf, secondVariation]).SameTests
      (pageEntry "a" [secondVariation, lowerHalf]) :=
    ⟨rfl, rfl, rfl, _, _, rfl, rfl, .swap _ _ _⟩
  have hrearranged : ∀ y ∈ rearrangedPages, ∃ x ∈ pages, x.Rearranges y := by
    simp only [rearrangedPages, pages, List.forall_mem_cons]
    refine ⟨⟨pageEntry "b" [secondVariation], by simp, ?_, rfl⟩,
      ⟨_, List.mem_cons_self, hsame, rfl⟩, by simp⟩
    exact ⟨rfl, rfl, rfl, _, _, rfl, rfl, .refl _⟩
  obtain ⟨run, r, hrun, hr, -, hparse, houtcomes⟩ :=
    resolveIn_settled Context.empty hvs hsteady hd hchosen
  obtain ⟨ws, hws, hkinds⟩ := hparse _ hrearranged
  obtain ⟨run', r', hrun', hr', heq⟩ := houtcomes _ _ hws hkinds
  exact ⟨⟨vs, hvs⟩, hsteady, hd, hchosen, run, r, run', r', hrun, hr, hrun', hr',
    heq 0 1 _ _ rfl rfl hsame⟩

end Rollout
