import Rollout.Proofs.Condition.Percent
import Rollout.Proofs.Registry.Reachable
import Rollout.Proofs.Variant.Parsed

/-! # Conditions of the built-in kinds

A configuration is of built-in kinds if each of its tags stands for one of the kinds that are always
at hand, whatever else the registry holds. Its conditions then are none with a test of their own. -/
namespace Rollout
set_option autoImplicit false

variable {G : Type}

def Condition.IsBuiltin : Condition G → Prop
  | custom _ _ => False
  | _ => True

namespace Registry

/-- Each tag of a configuration stands for a built-in kind. -/
def OfBuiltinKinds (r : Registry G) (config : Document) : Prop :=
  ∀ spec ∈ config.conditionSpecs, ∀ tag, spec.member? "type" = some (.text tag) →
    ∃ k ∈ (builtin : Registry G).kinds, r.find? tag = some k

/-- No tag of a configuration stands for a custom kind, though it may stand for none. -/
def NoCustomKind (r : Registry G) (config : Document) : Prop :=
  ∀ spec ∈ config.conditionSpecs, ∀ tag, spec.member? "type" = some (.text tag) →
    ∀ k, r.find? tag = some k → k ∈ (builtin : Registry G).kinds

theorem noCustomKind_of_subset {r : Registry G} (h : r.kinds ⊆ (builtin : Registry G).kinds)
    (config : Document) : r.NoCustomKind config :=
  fun _ _ _ _ _ hk => h (find?_eq_some hk).1

theorem NoCustomKind.ofBuiltinKinds {r : Registry G} {config : Document}
    (h : r.NoCustomKind config) {vs : List (Variant G)}
    (hparse : Variant.parseAll r config = .ok vs) : r.OfBuiltinKinds config := by
  intro spec hspec tag htag
  obtain ⟨c, hc⟩ := Variant.exists_condition_of_parseAll hparse hspec
  obtain ⟨tag', k, htag', hk, -⟩ := instantiate_eq_ok_iff.1 hc
  cases htag.symm.trans htag'
  exact ⟨k, h spec hspec tag htag k hk, hk⟩

/-- What a registry of the built-in kinds alone lets pass is of built-in kinds. -/
theorem ofBuiltinKinds_of_parseAll {config : Document} {vs : List (Variant G)}
    (h : Variant.parseAll builtin config = .ok vs) :
    (builtin : Registry G).OfBuiltinKinds config :=
  (noCustomKind_of_subset (List.Subset.refl _) config).ofBuiltinKinds h

theorem isBuiltin_of_build {k : Kind G} (hk : k ∈ (builtin : Registry G).kinds) {spec : Document}
    {c : Condition G} (h : k.build spec = .ok c) : c.IsBuiltin ∧ c.tag = k.tag := by
  rw [kinds_builtin] at hk
  simp only [List.mem_cons, List.not_mem_nil, or_false] at hk
  rcases hk with rfl | rfl | rfl | rfl | rfl | rfl | rfl | rfl
  case inl =>
    cases h
    exact ⟨trivial, rfl⟩
  case inr.inr.inr.inl =>
    cases h
    exact ⟨trivial, rfl⟩
  all_goals
    obtain ⟨a, -, rfl⟩ := Fault.map_eq_ok_iff.1 h
    exact ⟨trivial, rfl⟩

theorem OfBuiltinKinds.exists_spec {r : Registry G} {config : Document}
    (h : r.OfBuiltinKinds config) {vs : List (Variant G)}
    (hparse : Variant.parseAll r config = .ok vs) :
    ∀ c ∈ vs.flatMap Variant.conditions, c.IsBuiltin ∧
      ∃ spec ∈ config.conditionSpecs, spec.member? "type" = some (.text c.tag) := by
  intro c hc
  obtain ⟨v, hv, hc⟩ := List.mem_flatMap.1 hc
  obtain ⟨spec, hspec, hbuilt⟩ := Variant.exists_spec_of_parseAll hparse hv hc
  obtain ⟨tag, k, htag, hk, hbuild⟩ := instantiate_eq_ok_iff.1 hbuilt
  obtain ⟨k', hk', hfind⟩ := h spec hspec tag htag
  cases hk.symm.trans hfind
  obtain ⟨hbuiltin, heq⟩ := isBuiltin_of_build hk' hbuild
  rw [← (find?_eq_some hk).2, ← heq] at htag
  exact ⟨hbuiltin, spec, hspec, htag⟩

theorem OfBuiltinKinds.isBuiltin {r : Registry G} {config : Document}
    (h : r.OfBuiltinKinds config) {vs : List (Variant G)}
    (hparse : Variant.parseAll r config = .ok vs) :
    ∀ c ∈ vs.flatMap Variant.conditions, c.IsBuiltin := fun c hc => (h.exists_spec hparse c hc).1

end Registry

/-! ## Entries with one range -/

/-- The only condition of an entry has the tag and goes from `lower` to `upper`. -/
def Document.HasOneRange (entry : Document) (tag : String) (lower upper : Number) : Prop :=
  ∃ spec, entry.member? "conditions" = some (.list [spec]) ∧
    spec.member? "type" = some (.text tag) ∧
    spec.member? "from" = some (.number lower) ∧ spec.member? "to" = some (.number upper)

/-- A built-in kind whose conditions are made of a range makes them of the one that is written. -/
theorem Variant.conditions_of_hasOneRange {r : Registry G} {entries : List Document}
    (hkinds : r.OfBuiltinKinds (.list entries)) {entry : Document} (he : entry ∈ entries)
    {tag : String} {lower upper : Number} (h : entry.HasOneRange tag lower upper) {k : Kind G}
    (hk : k ∈ (Registry.builtin : Registry G).kinds) (htag : k.tag = tag)
    {make : PercentRange → Condition G}
    (hmake : ∀ spec, k.build spec = (Field.percentRange spec tag).map make) {v : Variant G}
    (hparse : parse r entry = .ok v) :
    ∃ range, v.conditions = [make range] ∧ range.interval = Set.Ico lower.value upper.value := by
  obtain ⟨spec, hds, hspec, hlower, hupper⟩ := h
  obtain ⟨ds, -, ⟨hds', -⟩, -, hcs, -, -⟩ := parse_eq_ok_iff.1 hparse
  cases hds.symm.trans hds'
  obtain ⟨c, cs, hbuilt, hnil, hv⟩ := List.forall₂_cons_left_iff.1 (Fault.mapM_eq_ok_iff.1 hcs)
  cases List.forall₂_nil_left_iff.1 hnil
  obtain ⟨tag', k', htag', hk', hbuild⟩ := Registry.instantiate_eq_ok_iff.1 hbuilt
  cases hspec.symm.trans htag'
  obtain ⟨k'', hmem, hfind⟩ := hkinds spec (Document.mem_conditionSpecs he hds (by simp)) _ hspec
  cases hk'.symm.trans hfind
  -- The tag leads to a built-in kind, and no other of these has it.
  have hsame : k'.tag = k.tag := (Registry.find?_eq_some hk').2.trans htag.symm
  cases Registry.eq_of_tag_eq hmem hk hsame
  rw [hmake] at hbuild
  obtain ⟨range, hrange, rfl⟩ := Fault.map_eq_ok_iff.1 hbuild
  exact ⟨range, hv, Field.interval_of_percentRange hrange hlower hupper⟩

end Rollout
