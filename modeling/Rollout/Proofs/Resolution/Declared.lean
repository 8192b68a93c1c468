import Rollout.Proofs.Entries.Extend
import Rollout.Proofs.Resolution.Run
import Rollout.Proofs.Variant.Parsed

/-! # A resolution by its entries

The mods of a resolution are described without merging: a key stands where it first occurs when the
mods of the active entries are written one after the other, and it has the value that the last
active entry with this key gives. `resolveIn_declared` says that every resolution is of this form. -/
namespace Rollout
set_option autoImplicit false

variable {G : Type}

/-! ## The description -/

/-- The entries with an active activation, in order. -/
def activeEntries (entries : List Document) (as : List Activation) : List Document :=
  ((entries.zip as).filter fun p => p.2.isActive).map Prod.fst

/-- The resolution that the entries of a configuration and the requested ids allow, up to which of
the entries that are not forced are active. -/
structure Resolution.Declared (r : Resolution) (entries : List Document) (requested : List String) :
    Prop where
  requested_eq : r.requested = requested
  ids : List.Forall₂ (fun entry o => entry.member? "id" = some (.text o.id)) entries r.outcomes
  forced : List.Forall₂ (fun entry o =>
    (entry.member? "allowUrlOverrides" = some (.boolean true) ∧ o.id ∈ requested →
      o.activation = .forced) ∧
    (¬(entry.member? "allowUrlOverrides" = some (.boolean true) ∧ o.id ∈ requested) →
      o.activation = .conditions ∨ o.activation = .inactive)) entries r.outcomes
  keys_nodup : r.mods.keys.Nodup
  keys : r.mods.keys = ((activeEntries entries (r.outcomes.map Outcome.activation)).flatMap
    fun entry => (Variant.writtenMods entry).keys).eraseDups
  values : ∀ key value, r.mods.find? key = some value ↔ ∃ before entry after,
    activeEntries entries (r.outcomes.map Outcome.activation) = before ++ entry :: after ∧
    (Variant.writtenMods entry).last? key = some value ∧
    ∀ later ∈ after, key ∉ (Variant.writtenMods later).keys
  empty : r.mods.entries = [] ↔ r.activeIds = []

/-! ## Merged mods -/

namespace Variant

theorem activeEntries_cons (entry : Document) (entries : List Document) (a : Activation)
    (as : List Activation) : activeEntries (entry :: entries) (a :: as) =
      if a.isActive then entry :: activeEntries entries as else activeEntries entries as := by
  rw [activeEntries, List.zip_cons_cons, List.filter_cons]
  split <;> rfl

/-- Merging the mods of active entries is putting the pairs that they write down, in order. -/
theorem foldl_merge_entries {entries : List Document} {vs : List (Variant G)}
    (h : List.Forall₂ ReadFrom entries vs) (as : List Activation) (m : Mods) :
    ((vs.zip as).foldl (fun m e => if e.2.isActive then m.merge e.1.mods else m) m).entries =
      m.entries.extend ((activeEntries entries as).flatMap writtenMods) := by
  induction h generalizing as m with
  | nil => rfl
  | @cons entry v entries vs hv _ ih =>
    cases as with
    | nil => rfl
    | cons a as =>
      rw [List.zip_cons_cons, List.foldl_cons, ih, activeEntries_cons]
      split
      · rw [List.flatMap_cons, Entries.extend_append, hv.mods]
        show (m.entries.extend (Entries.extend [] (writtenMods entry))).extend _ = _
        rw [Entries.extend_extend _ Entries.distinct_nil, Entries.extend_nil]
      · rfl

theorem mergedMods_entries {entries : List Document} {vs : List (Variant G)}
    (h : List.Forall₂ ReadFrom entries vs) (as : List Activation) :
    (mergedMods vs as).entries =
      Entries.extend [] ((activeEntries entries as).flatMap writtenMods) :=
  foldl_merge_entries h as Mods.empty

theorem mergedMods_keys {entries : List Document} {vs : List (Variant G)}
    (h : List.Forall₂ ReadFrom entries vs) (as : List Activation) :
    (mergedMods vs as).keys =
      ((activeEntries entries as).flatMap fun entry => (writtenMods entry).keys).eraseDups := by
  rw [Mods.keys, mergedMods_entries h, Entries.keys_extend Entries.distinct_nil,
    ← Entries.keys_flatMap]
  rfl

theorem mergedMods_find? {entries : List Document} {vs : List (Variant G)}
    (h : List.Forall₂ ReadFrom entries vs) (as : List Activation) (key : String) :
    (mergedMods vs as).find? key =
      Entries.last? ((activeEntries entries as).flatMap writtenMods) key := by
  rw [Mods.find?, mergedMods_entries h, Entries.find?_extend]
  exact Option.or_none

/-- Every entry writes down some mods, so the merged mods are empty only if no entry is active. -/
theorem mergedMods_eq_nil_iff {entries : List Document} {vs : List (Variant G)}
    (h : List.Forall₂ ReadFrom entries vs) (as : List Activation) :
    (mergedMods vs as).entries = [] ↔ activeEntries entries as = [] := by
  -- The first active entry has a first mod, and its key is among the merged ones.
  have hwritten : ∀ entry ∈ entries, writtenMods entry ≠ [] := by
    intro entry hentry
    obtain ⟨v, -, hv⟩ := rel_of_mem_left h hentry
    exact hv.mods_ne_nil
  constructor
  · intro hnil
    have hkeys : (mergedMods vs as).keys = [] := by rw [Mods.keys, hnil]; rfl
    rw [mergedMods_keys h] at hkeys
    cases hact : activeEntries entries as with
    | nil => rfl
    | cons entry rest =>
      have hmem : entry ∈ entries := by
        have hfirst : entry ∈ activeEntries entries as := by simp [hact]
        obtain ⟨p, hp, rfl⟩ := List.mem_map.1 hfirst
        exact (List.of_mem_zip (List.mem_filter.1 hp).1).1
      cases hw : writtenMods entry with
      | nil => exact absurd hw (hwritten entry hmem)
      | cons e es =>
        have hkey : e.1 ∈ ((activeEntries entries as).flatMap
            fun entry => (writtenMods entry).keys).eraseDups := by
          rw [List.mem_eraseDups, hact, List.flatMap_cons, hw]
          exact List.mem_append_left _ List.mem_cons_self
        rw [hkeys] at hkey
        cases hkey
  · intro hnil
    rw [mergedMods_entries h, hnil]
    rfl

/-! ## Outcomes -/

theorem forall₂_outcomes {P : Variant G → Activation → Prop} {Q : Document → Outcome → Prop}
    (hstep : ∀ entry v a, ReadFrom entry v → P v a → Q entry (v.outcome a))
    {entries : List Document} {vs : List (Variant G)} {as : List Activation}
    (hread : List.Forall₂ ReadFrom entries vs) (has : List.Forall₂ P vs as) :
    List.Forall₂ Q entries (List.zipWith outcome vs as) := by
  induction hread generalizing as with
  | nil => exact .nil
  | cons hv _ ih =>
    cases has with
    | cons ha has => exact .cons (hstep _ _ _ hv ha) (ih has)

end Variant

/-! ## Every resolution -/

theorem activeIds_eq_nil_iff {entries : List Document} {vs : List (Variant G)}
    {as : List Activation} (hread : List.Forall₂ Variant.ReadFrom entries vs)
    (hlen : as.length = vs.length) :
    ((List.zipWith Variant.outcome vs as).filter fun o => o.activation.isActive) = [] ↔
      activeEntries entries as = [] := by
  induction hread generalizing as with
  | nil => simp [activeEntries]
  | @cons entry v entries vs _ _ ih =>
    cases as with
    | nil => cases hlen
    | cons a as =>
      have htail := ih (Nat.succ.inj hlen)
      rw [List.zipWith_cons_cons, List.filter_cons, Variant.activeEntries_cons, Variant.outcome]
      split
      · simp
      · exact htail

theorem resolution_declared [RandomSource G] {e : Engine G} {ctx : Context}
    {entries : List Document} {vs : List (Variant G)} {s : Scope G} {u : Run G (List Activation)}
    (hread : List.Forall₂ Variant.ReadFrom entries vs)
    (h : Variant.activations (e.requested ctx) ctx vs s = some u) :
    (e.resolution ctx vs u.value).Declared entries (e.requested ctx) := by
  have hall := (Variant.activations_forall₂ h).1
  have has : ((e.resolution ctx vs u.value).outcomes.map Outcome.activation) = u.value :=
    Variant.activations_of_outcomes hall
  constructor
  case requested_eq => rfl
  case ids => exact Variant.forall₂_outcomes (fun _ _ _ hv _ => hv.id) hread hall
  case forced =>
    refine Variant.forall₂_outcomes ?_ hread hall
    rintro entry v a hv ⟨s', t, -, ht, rfl, -⟩
    rw [← hv.forcible]
    exact Variant.activation_cases ht
  case keys_nodup => exact (Variant.mergedMods vs u.value).distinct
  case keys =>
    rw [has]
    exact Variant.mergedMods_keys hread u.value
  case values =>
    intro key value
    rw [has, ← Entries.last?_flatMap_eq_some_iff, ← Variant.mergedMods_find? hread]
    rfl
  case empty =>
    rw [Resolution.activeIds, List.map_eq_nil_iff]
    exact (Variant.mergedMods_eq_nil_iff hread u.value).trans
      (activeIds_eq_nil_iff hread hall.length_eq.symm).symm

/-- A configuration that parses is resolved as its entries declare, whatever the engine, the context
and the scope, and a resolution is missing only where a test that it makes has no answer. -/
theorem resolveIn_declared [RandomSource G] (e : Engine G) {config : Document}
    {vs : List (Variant G)} (h : e.parse config = .ok vs) (ctx : Context) (s : Scope G) :
    (∀ run, e.resolveIn config ctx s = some run → ∃ entries r, config = .list entries ∧
      run.value = .ok r ∧ r.Declared entries (e.requested ctx)) ∧
    ((∀ c ∈ vs.flatMap Variant.conditions, ∀ s', Reaches ctx (vs.flatMap Variant.conditions)
      (s.inherit e.service) s' → (c.test ctx s').isSome) → (e.resolveIn config ctx s).isSome) := by
  obtain ⟨entries, rfl, hparsed⟩ := Variant.parseAll_eq_ok_iff.1 h
  have hread := hparsed.imp fun _ _ => Variant.readFrom_of_parse
  constructor
  · intro run hrun
    obtain ⟨u, hu, rfl⟩ := (Engine.resolveIn_eq_some_iff h).1 hrun
    exact ⟨entries, _, rfl, rfl, resolution_declared hread hu⟩
  · intro htests
    have hrun : (Variant.activations (e.requested ctx) ctx vs (s.inherit e.service)).isSome :=
      Variant.activations_isSome htests
    obtain ⟨u, hu⟩ := Option.isSome_iff_exists.1 hrun
    rw [Option.isSome_iff_exists]
    exact ⟨_, (Engine.resolveIn_eq_some_iff h).2 ⟨u, hu, rfl⟩⟩

/-- Four entries that share ids and mods; the second is for the URL to force on. -/
def overlapping : Document := .list [
  .object [("id", .text "a"), ("conditions", .list [.object [("type", .text "ALWAYS")]]),
    ("mods", .object [("x", .text "1"), ("y", .text "2")])],
  .object [("id", .text "b"), ("conditions", .list [.object [("type", .text "NEVER")]]),
    ("mods", .object [("y", .text "3"), ("z", .text "4")]), ("allowUrlOverrides", .boolean true)],
  .object [("id", .text "a"), ("conditions", .list [.object [("type", .text "NEVER")]]),
    ("mods", .object [("w", .text "5")])],
  .object [("id", .text "c"), ("conditions", .list [.object [("type", .text "ALWAYS")]]),
    ("mods", .object [("x", .text "6")])]]

theorem resolveIn_declared_overlapping :
    ∃ vs, (Engine.standard : Engine Generator).parse overlapping = .ok vs ∧
    ∃ run, Engine.standard.resolveIn overlapping { Context.empty with search := some "?variants=b" }
        (Scope.fresh (Generator.seeded 0)) = some run ∧
      ∃ entries r, overlapping = .list entries ∧ run.value = .ok r ∧ r.Declared entries ["b"] := by
  have h : (Engine.standard : Engine Generator).parse overlapping = .ok _ := rfl
  have hrun : (Engine.standard : Engine Generator).resolveIn overlapping
      { Context.empty with search := some "?variants=b" } (Scope.fresh (Generator.seeded 0)) =
        some _ := rfl
  exact ⟨_, h, _, hrun, (resolveIn_declared _ h _ _).1 _ hrun⟩

end Rollout
