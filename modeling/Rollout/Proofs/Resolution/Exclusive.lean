import Mathlib.Data.Set.Lattice
import Mathlib.Order.CompletePartialOrder
import Mathlib.Order.Interval.Set.Disjoint
import Rollout.Proofs.Condition.Keeps
import Rollout.Proofs.Resolution.Run

/-! # One bucket for a whole resolution

Built-in conditions never change a bucket that has been drawn, so every test of the shared bucket in
a resolution sees the bucket that the resolution leaves behind. Entries that divide the percents
among themselves are therefore active one at a time. -/
namespace Rollout
set_option autoImplicit false

variable {G : Type} [RandomSource G]

/-! ## The bucket along a run -/

namespace Condition

/-- A test of the shared bucket leaves the bucket that it has looked at. -/
theorem test_randomMod {range : PercentRange} {ctx : Context} {s : Scope G} {r : Run G Bool}
    (h : (randomMod range).test ctx s = some r) :
    ∃ b, r.scope.bucket = some b ∧ r.value = range.contains (sharedNumber b) := by
  obtain ⟨t, ht, rfl⟩ := test_randomMod_eq_some_iff.1 h
  exact ⟨t.value, (Trial.bucket_spec ht).1, rfl⟩

end Condition

theorem Reaches.keeps_bucket {ctx : Context} {cs : List (Condition G)}
    (hcs : ∀ c ∈ cs, c.IsBuiltin) {s t : Scope G} (h : Reaches ctx cs s t) {b : Fin 100}
    (hb : s.bucket = some b) : t.bucket = some b :=
  h.keeps (P := fun s => s.bucket = some b)
    (fun c hc _ _ htest hs => (((hcs c hc).keeps htest).bucket b hs).1) hb

/-! ## Entries with one condition -/

theorem Operator.evaluate_singleton {op : Operator} {ctx : Context} {c : Condition G}
    {s : Scope G} {r : Run G Bool} (h : op.evaluate ctx [c] s = some r) :
    ∃ t, c.test ctx s = some t ∧ r.value = t.value ∧ r.scope = t.scope := by
  obtain ⟨t, ht, ⟨-, rfl⟩ | ⟨hn, u, hu, rfl⟩⟩ := evaluate_cons_eq_some_iff.1 h
  · exact ⟨t, ht, rfl, rfl⟩
  · cases hu
    exact ⟨t, ht, hn.symm, rfl⟩

theorem Variant.activation_of_one {requested : List String} {ctx : Context} {v : Variant G}
    {c : Condition G} (hv : v.conditions = [c]) {s : Scope G} {t : Run G Activation}
    (h : v.activation requested ctx s = some t) (hforced : t.value ≠ .forced) :
    ∃ r, c.test ctx s = some r ∧ t.scope = r.scope ∧ t.value.isActive = r.value := by
  cases hf : v.isForced requested with
  | true =>
    rw [activation_of_forced hf] at h
    cases h
    exact absurd rfl hforced
  | false =>
    obtain ⟨u, hu, rfl⟩ := (activation_eq_some_iff hf).1 h
    rw [hv] at hu
    obtain ⟨r, hr, hvalue, hscope⟩ := Operator.evaluate_singleton hu
    refine ⟨r, hr, hscope, ?_⟩
    rw [← hvalue]
    cases u.value <;> rfl

/-- The entry at this place is active. -/
def Resolution.ActiveAt (r : Resolution) (i : ℕ) : Prop :=
  ∃ o, r.outcomes[i]? = some o ∧ o.activation.isActive = true

omit [RandomSource G] in
theorem Engine.exists_parse_of_getElem? {e : Engine G} {entries : List Document}
    {vs : List (Variant G)} (h : e.parse (.list entries) = .ok vs) {i : ℕ} {entry : Document}
    (hentry : entries[i]? = some entry) :
    ∃ v, vs[i]? = some v ∧ Variant.parse e.registry entry = .ok v := by
  obtain ⟨_, hlist, hparsed⟩ := Variant.parseAll_eq_ok_iff.1 h
  cases hlist
  exact rel_of_getElem? hparsed hentry

/-- An entry with one condition, which the URL does not force on, is active exactly if the condition
holds where the run tests it. -/
theorem activeAt_iff_test {e : Engine G} {entries : List Document} {vs : List (Variant G)}
    (h : e.parse (.list entries) = .ok vs) {ctx : Context} {s : Scope G}
    {u : Run G (List Activation)}
    (hu : Variant.activations (e.requested ctx) ctx vs s = some u) {i : ℕ} {entry : Document}
    (hentry : entries[i]? = some entry) {o : Outcome}
    (ho : (e.resolution ctx vs u.value).outcomes[i]? = some o) (hforced : o.activation ≠ .forced)
    {v : Variant G} (hparse : Variant.parse e.registry entry = .ok v) {c : Condition G}
    (hone : v.conditions = [c]) :
    ∃ s' r, c.test ctx s' = some r ∧ Reaches ctx (vs.flatMap Variant.conditions) r.scope u.scope ∧
      ((e.resolution ctx vs u.value).ActiveAt i ↔ r.value = true) := by
  obtain ⟨v', hv, hparse'⟩ := Engine.exists_parse_of_getElem? h hentry
  cases hparse.symm.trans hparse'
  obtain ⟨a, ha, s', t, -, ht, rfl, hend⟩ := rel_of_getElem? (Variant.activations_forall₂ hu).1 hv
  have houtcome : (e.resolution ctx vs u.value).outcomes[i]? = some (v.outcome t.value) := by
    rw [Engine.resolution, List.getElem?_zipWith, hv, ha]
  cases houtcome.symm.trans ho
  obtain ⟨r, hr, hscope, hvalue⟩ := Variant.activation_of_one hone ht hforced
  rw [hscope] at hend
  refine ⟨s', r, hr, hend, ?_⟩
  rw [← hvalue]
  simp [Resolution.ActiveAt, houtcome, Variant.outcome]

/-! ## Division of the percents -/

/-- The places of some entries that look at the shared bucket only and that the URL does not force
on, with the range of each. -/
def Resolution.Selects (r : Resolution) (entries : List Document) (places : Set ℕ)
    (lower upper : ℕ → Number) : Prop :=
  ∀ i ∈ places, ∃ entry o, entries[i]? = some entry ∧
    entry.HasOneRange "RANDOM_MOD" (lower i) (upper i) ∧
    r.outcomes[i]? = some o ∧ o.activation ≠ .forced

/-- A selected entry is active exactly if the bucket that the run leaves lies in its range. -/
theorem activeAt_iff_bucket {e : Engine G} {entries : List Document} {vs : List (Variant G)}
    (h : e.parse (.list entries) = .ok vs) (hkinds : e.registry.OfBuiltinKinds (.list entries))
    {ctx : Context} {s : Scope G} {u : Run G (List Activation)}
    (hu : Variant.activations (e.requested ctx) ctx vs s = some u)
    {places : Set ℕ} {lower upper : ℕ → Number}
    (hplaces : (e.resolution ctx vs u.value).Selects entries places lower upper)
    {i : ℕ} (hi : i ∈ places) :
    ∃ b, u.scope.bucket = some b ∧ ((e.resolution ctx vs u.value).ActiveAt i ↔
      (b.val : ℚ) ∈ Set.Ico (lower i).value (upper i).value) := by
  obtain ⟨entry, o, hentry, hmod, ho, hforced⟩ := hplaces i hi
  obtain ⟨v, -, hparse⟩ := Engine.exists_parse_of_getElem? h hentry
  have hmem : Kind.randomMod ∈ (Registry.builtin : Registry G).kinds := by
    simp [Registry.kinds_builtin]
  obtain ⟨range, hconditions, hinterval⟩ := Variant.conditions_of_hasOneRange hkinds
    (List.mem_of_getElem? hentry) hmod hmem rfl (fun _ => rfl) hparse
  obtain ⟨s', r, hr, hend, hactive⟩ :=
    activeAt_iff_test h hu hentry ho hforced hparse hconditions
  obtain ⟨b, hb, hvalue⟩ := Condition.test_randomMod hr
  refine ⟨b, hend.keeps_bucket (hkinds.isBuiltin h) hb, ?_⟩
  rw [hactive, hvalue, PercentRange.contains_iff, hinterval, Condition.value_sharedNumber]

/-- Of entries with disjoint ranges of the shared bucket at most one is active, and exactly one if
the ranges leave no percent out, whatever else the configuration holds. -/
theorem resolveIn_exclusive {e : Engine G} {entries : List Document} {vs : List (Variant G)}
    (h : e.parse (.list entries) = .ok vs) (hkinds : e.registry.OfBuiltinKinds (.list entries))
    {ctx : Context} {s : Scope G} {run : Run G (Except ConfigError Resolution)}
    (hrun : e.resolveIn (.list entries) ctx s = some run) :
    ∃ r, run.value = .ok r ∧ ∀ (places : Set ℕ) (lower upper : ℕ → Number),
      r.Selects entries places lower upper →
      (places.PairwiseDisjoint fun i => Set.Ico (lower i).value (upper i).value) →
      (∀ i ∈ places, ∀ j ∈ places, r.ActiveAt i → r.ActiveAt j → i = j) ∧
      (Set.Ico (0 : ℚ) 100 ⊆ ⋃ i ∈ places, Set.Ico (lower i).value (upper i).value →
        ∃! i, i ∈ places ∧ r.ActiveAt i) := by
  obtain ⟨u, hu, rfl⟩ := (Engine.resolveIn_eq_some_iff h).1 hrun
  refine ⟨_, rfl, fun places lower upper hplaces hdisjoint => ?_⟩
  have hone : ∀ i ∈ places, ∀ j ∈ places, (e.resolution ctx vs u.value).ActiveAt i →
      (e.resolution ctx vs u.value).ActiveAt j → i = j := by
    intro i hi j hj hacti hactj
    obtain ⟨b, hb, hiffi⟩ := activeAt_iff_bucket h hkinds hu hplaces hi
    obtain ⟨c, hc, hiffj⟩ := activeAt_iff_bucket h hkinds hu hplaces hj
    cases hb.symm.trans hc
    exact hdisjoint.elim_set hi hj _ (hiffi.1 hacti) (hiffj.1 hactj)
  refine ⟨hone, fun hcover => ?_⟩
  -- Some range holds the percent 0, so some entry has made the run draw the bucket.
  have hzero : (0 : ℚ) ∈ Set.Ico (0 : ℚ) 100 := by norm_num
  obtain ⟨k, hk, -⟩ := Set.mem_iUnion₂.1 (hcover hzero)
  obtain ⟨b, hb, -⟩ := activeAt_iff_bucket h hkinds hu hplaces hk
  have hpercent : (b.val : ℚ) ∈ Set.Ico (0 : ℚ) 100 := ⟨Nat.cast_nonneg _, by simp⟩
  obtain ⟨i, hi, hmem⟩ := Set.mem_iUnion₂.1 (hcover hpercent)
  obtain ⟨c, hc, hiff⟩ := activeAt_iff_bucket h hkinds hu hplaces hi
  cases hb.symm.trans hc
  exact ⟨i, ⟨hi, hiff.2 hmem⟩, fun j hj => hone j hj.1 i hi hj.2 (hiff.2 hmem)⟩

/-- A percentage that is no integer. -/
def cut : Number := .real (Binary64.ofRatio 67 2 (by decide))

def share (id : String) (lower upper : Number) : Document := .object [("id", .text id),
  ("conditions", .list [.object [("type", .text "RANDOM_MOD"), ("from", .number lower),
    ("to", .number upper)]]), ("mods", .object [("page", .text id)])]

/-- Two shares that meet at the cut, and an entry with a draw of its own between them. -/
def divided : List Document := [share "old" (.percent 0) cut,
  .object [("id", .text "sampled"), ("conditions", .list [.object [("type", .text "RANDOM"),
    ("value", .number (.real (Binary64.ofRatio 1 2 (by decide))))]]),
    ("mods", .object [("log", .text "sampledLog")])],
  share "new" cut (.percent 100)]

theorem resolveIn_exclusive_divided :
    ∃ vs, (Engine.standard : Engine Generator).parse (.list divided) = .ok vs ∧
    (Engine.standard : Engine Generator).registry.OfBuiltinKinds (.list divided) ∧
    ∃ run, Engine.standard.resolveIn (.list divided) Context.empty
      (Scope.fresh (Generator.stepping 1450000000 7)) = some run ∧
    ∃ r, run.value = .ok r ∧ ∃! i, i ∈ ({0, 2} : Set ℕ) ∧ r.ActiveAt i := by
  have houtcomes : (Engine.standard.resolveIn (.list divided) Context.empty
      (Scope.fresh (Generator.stepping 1450000000 7))).map
        (fun run => run.value.toOption.map Resolution.outcomes) =
      some (some [⟨"old", .conditions⟩, ⟨"sampled", .conditions⟩, ⟨"new", .inactive⟩]) := by
    decide +kernel
  have hok : ((Engine.standard : Engine Generator).parse (.list divided)).isOk = true := by
    decide +kernel
  obtain ⟨vs, h⟩ := Fault.exists_of_isOk hok
  have hkinds := Registry.ofBuiltinKinds_of_parseAll h
  obtain ⟨run, hrun, hvalue⟩ := Option.map_eq_some_iff.1 houtcomes
  obtain ⟨r, hr, hall⟩ := resolveIn_exclusive h hkinds hrun
  rw [hr] at hvalue
  have hr' : r.outcomes = _ := Option.some_inj.1 hvalue
  refine ⟨vs, h, hkinds, run, hrun, r, hr, ?_⟩
  refine (hall {0, 2} (fun i => if i = 0 then .percent 0 else cut)
    (fun i => if i = 0 then cut else .percent 100) ?_ ?_).2 ?_
  · rintro i (rfl | rfl)
    · exact ⟨_, _, rfl, ⟨_, rfl, rfl, rfl, rfl⟩, by rw [hr']; rfl, by decide⟩
    · exact ⟨_, _, rfl, ⟨_, rfl, rfl, rfl, rfl⟩, by rw [hr']; rfl, by decide⟩
  · rintro i (rfl | rfl) j (rfl | rfl) hne
    · exact absurd rfl hne
    · exact Set.Ico_disjoint_Ico_same
    · exact Set.Ico_disjoint_Ico_same.symm
    · exact absurd rfl hne
  · intro x hx
    have hlower : (Number.percent 0).value = (0 : ℕ) := Number.value_percent (by decide)
    have hupper : (Number.percent 100).value = (100 : ℕ) := Number.value_percent (by decide)
    rw [Nat.cast_zero] at hlower
    rw [Nat.cast_ofNat] at hupper
    rw [Set.mem_iUnion₂]
    rcases lt_or_ge x cut.value with hlt | hge
    · exact ⟨0, .inl rfl, hlower.trans_le hx.1, hlt⟩
    · exact ⟨2, .inr rfl, hge, hx.2.trans_eq hupper.symm⟩

end Rollout
