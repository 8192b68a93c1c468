import Rollout.Proofs.Registry.Reachable
import Rollout.Proofs.Schema.Shape

/-! # The schema and the parser agree

Two descriptions of the shape of a configuration: the rules of the schema, and the checks that the
parser makes while it builds the entries. A configuration that parses breaks no rule, and one that
breaks no rule is refused only for what the registry says of the tag or the fields of a condition. -/
namespace Rollout
set_option autoImplicit false

variable {G : Type}

/-! ## Faults of the registry -/

/-- The fault is the registry's about one of the conditions: its tag is a text under which no kind
is registered, or the kind registered under it does not build the condition. -/
def Registry.Refuses (r : Registry G) (config : Document) (fault : ConfigError) : Prop :=
  ∃ spec ∈ config.conditionSpecs, ∃ tag, spec.member? "type" = some (.text tag) ∧
    ((r.find? tag = none ∧ fault = .unknownTag tag r.tags) ∨
      (∃ k, r.find? tag = some k ∧ k.build spec = .error fault))

/-! ## Entries -/

namespace Variant

theorem isEntry_of_parse {r : Registry G} (hr : r.NoneBlank) {entry : Document} {v : Variant G}
    (h : parse r entry = .ok v) : entry.IsEntry := by
  obtain ⟨ds, hid, ⟨hds, hne⟩, hmods, hcs, hop, -⟩ := parse_eq_ok_iff.1 h
  obtain ⟨members, hmembers, hsome, htexts, -⟩ := parseMods_eq_ok_iff.1 hmods
  refine ⟨⟨_, hid⟩, ⟨ds, hds, hne, fun d hd => ?_⟩, ⟨_, hmembers, members, rfl, hsome, htexts⟩,
    (Operator.parse_isOk_iff _).1 ⟨_, hop⟩⟩
  -- The empty tag is blank, so no kind is registered under it.
  obtain ⟨c, -, hc⟩ := rel_of_mem_left (Fault.mapM_eq_ok_iff.1 hcs) hd
  obtain ⟨tag, k, htag, hk, -⟩ := Registry.instantiate_eq_ok_iff.1 hc
  obtain ⟨hmem, rfl⟩ := Registry.find?_eq_some hk
  refine ⟨k.tag, htag, fun hempty => ?_⟩
  have hblank := hr k hmem
  rw [hempty] at hblank
  exact absurd hblank (by decide)

/-- An entry of the right shape fails only in the building of one of its conditions. -/
theorem exists_instantiate_error {r : Registry G} {entry : Document} (h : entry.IsEntry)
    {fault : ConfigError} (hf : parse r entry = .error fault) :
    ∃ ds, entry.member? "conditions" = some (.list ds) ∧
      ∃ d ∈ ds, d.IsCondition ∧ r.instantiate d = .error fault := by
  obtain ⟨⟨id, hid⟩, ⟨ds, hds, hne, hshapes⟩, ⟨m, hm, members, rfl, hsome, htexts⟩, hop⟩ := h
  refine ⟨ds, hds, ?_⟩
  have hid' : parseId entry = .ok id := parseId_eq_ok_iff.2 hid
  have hds' : specs id (entry.member? "conditions") = .ok ds := specs_eq_ok_iff.2 ⟨hds, hne⟩
  have hmods' : parseMods id (entry.member? "mods") = .ok _ :=
    parseMods_eq_ok_iff.2 ⟨members, hm, hsome, htexts, rfl⟩
  obtain ⟨op, hop'⟩ := (Operator.parse_isOk_iff _).2 hop
  simp only [parse_eq_error_iff, hid', hds', hmods', hop', reduceCtorEq, Except.ok.injEq, false_or,
    exists_eq_left', and_false, exists_false, or_false] at hf
  obtain ⟨before, d, after, rfl, -, hd⟩ := Fault.mapM_eq_error_iff.1 hf
  have hmem : d ∈ before ++ d :: after := by simp
  exact ⟨d, hmem, hshapes d hmem, hd⟩

end Variant

/-! ## Configurations -/

/-- What the parser accepts the schema accepts, and what the schema accepts the parser accepts as
far as the registry does. -/
theorem violations_agree_parseAll {r : Registry G} (hr : r.Reachable) (config : Document) :
    ((∃ vs, Variant.parseAll r config = .ok vs) → violations config = []) ∧
    (violations config = [] → (∃ vs, Variant.parseAll r config = .ok vs) ∨
      ∃ fault, Variant.parseAll r config = .error fault ∧ r.Refuses config fault) := by
  constructor
  · rintro ⟨vs, hvs⟩
    obtain ⟨entries, rfl, hparsed⟩ := Variant.parseAll_eq_ok_iff.1 hvs
    have hentries : ∀ entry ∈ entries, entry.IsEntry := by
      intro entry hentry
      obtain ⟨v, -, hparse⟩ := rel_of_mem_left hparsed hentry
      exact Variant.isEntry_of_parse hr.noneBlank hparse
    exact violations_eq_nil_iff.2 ⟨entries, rfl, hentries⟩
  · intro hnil
    obtain ⟨entries, rfl, hentries⟩ := violations_eq_nil_iff.1 hnil
    cases hparse : Variant.parseAll r (.list entries) with
    | ok vs => exact .inl ⟨vs, rfl⟩
    | error fault =>
      refine .inr ⟨fault, rfl, ?_⟩
      obtain ⟨before, entry, after, rfl, -, hbad⟩ := Fault.mapM_eq_error_iff.1 hparse
      have hmem : entry ∈ before ++ entry :: after := by simp
      obtain ⟨ds, hds, d, hd, ⟨tag, htag, -⟩, hfault⟩ :=
        Variant.exists_instantiate_error (hentries entry hmem) hbad
      exact ⟨d, Document.mem_conditionSpecs hmem hds hd, tag, htag,
        (Registry.instantiate_eq_error_iff htag).1 hfault⟩

/-- The built-in kinds and one that builds no condition; the registration under blanks is refused. -/
def closedWeekends : Registry Unit :=
  Registry.builtin.after [Kind.refusing " " "blank", Kind.refusing "WEEKEND" "closed on weekends"]

/-- An entry of the right shape, its operator in mixed case, with conditions of the given kind. -/
def entryOfKind (tag : String) : Document := .object [("id", .text "sale"),
  ("conditions", .list [.object [("type", .text tag)], .object [("type", .text "NEVER")]]),
  ("mods", .object [("banner", .text "saleBanner")]), ("conditionalOperator", .text "aNd")]

theorem violations_agree_parseAll_closedWeekends :
    closedWeekends.Reachable ∧
    violations (.list [entryOfKind "ALWAYS"]) = [] ∧
    violations (.list [entryOfKind "WEEKEND"]) = [] ∧
    ∃ fault, Variant.parseAll closedWeekends (.list [entryOfKind "WEEKEND"]) = .error fault ∧
      closedWeekends.Refuses (.list [entryOfKind "WEEKEND"]) fault := by
  have hr : closedWeekends.Reachable := ⟨_, .inr rfl⟩
  have hweekend : violations (.list [entryOfKind "WEEKEND"]) = [] := rfl
  refine ⟨hr, ?_, hweekend, ?_⟩
  · exact (violations_agree_parseAll hr (.list [entryOfKind "ALWAYS"])).1 ⟨_, rfl⟩
  · rcases (violations_agree_parseAll hr (.list [entryOfKind "WEEKEND"])).2 hweekend with
      ⟨vs, hvs⟩ | hfault
    · have herror : Variant.parseAll closedWeekends (.list [entryOfKind "WEEKEND"]) =
          .error (.refused .condition "closed on weekends") := rfl
      rw [herror] at hvs
      cases hvs
    · exact hfault

end Rollout
