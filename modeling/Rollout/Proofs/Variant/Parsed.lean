import Rollout.Proofs.Fault.First
import Rollout.Variant

/-! # What a checked entry says of the document it was read from

Each reader of an entry's parts passes exactly on one form of documents. From these: a checked entry
has the id, the mods and the leave for the URL that its document writes down, and a configuration
passes exactly when it is a list whose items pass. -/
namespace Rollout
set_option autoImplicit false

/-! ## Forms -/

namespace Document

theorem text?_eq_some_iff {d : Document} {s : String} : d.text? = some s ↔ d = .text s := by
  cases d <;> simp [text?]

theorem items?_eq_some_iff {d : Document} {ds : List Document} :
    d.items? = some ds ↔ d = .list ds := by
  cases d <;> simp [items?]

theorem members?_eq_some_iff {d : Document} {es : Entries Document} :
    d.members? = some es ↔ d = .object es := by
  cases d <;> simp [members?]

/-- The members of an object that are texts, in the order in which they are written. -/
def textMembers (d : Document) : Entries String :=
  (d.members?.getD []).filterMap fun e => e.2.text?.map (Prod.mk e.1)

/-- The conditions that a configuration writes down. -/
def conditionSpecs (config : Document) : List Document :=
  (config.items?.getD []).flatMap fun entry =>
    ((entry.member? "conditions").bind items?).getD []

theorem mem_conditionSpecs {entries ds : List Document} {entry d : Document}
    (he : entry ∈ entries) (hds : entry.member? "conditions" = some (.list ds)) (hd : d ∈ ds) :
    d ∈ (list entries).conditionSpecs := by
  have hspecs : ((entry.member? "conditions").bind items?).getD [] = ds := by
    rw [hds]
    rfl
  exact List.mem_flatMap.2 ⟨entry, he, by rw [hspecs]; exact hd⟩

end Document

namespace Variant

variable {G : Type}

/-- The mods that an entry writes down, key by key. -/
def writtenMods (entry : Document) : Entries String :=
  match entry.member? "mods" with
  | some mods => mods.textMembers
  | none => []

/-! ## Parts of an entry -/

theorem parseId_eq_ok_iff {entry : Document} {id : String} :
    parseId entry = .ok id ↔ entry.member? "id" = some (.text id) := by
  unfold parseId
  cases h : (entry.member? "id").bind Document.text? with
  | none =>
    refine iff_of_false (by simp) fun hid => ?_
    rw [hid] at h
    cases h
  | some s =>
    obtain ⟨d, hd, hs⟩ := Option.bind_eq_some_iff.1 h
    rw [hd, Document.text?_eq_some_iff.1 hs]
    simp

theorem specs_eq_ok_iff {id : String} {d : Option Document} {ds : List Document} :
    specs id d = .ok ds ↔ d = some (.list ds) ∧ ds ≠ [] := by
  unfold specs
  split
  · rename_i x rest h
    obtain ⟨d, rfl, hd⟩ := Option.bind_eq_some_iff.1 h
    rw [Document.items?_eq_some_iff.1 hd]
    constructor
    · intro h
      cases h
      exact ⟨rfl, List.cons_ne_nil _ _⟩
    · rintro ⟨h, -⟩
      cases h
      rfl
  · rename_i h
    refine iff_of_false (by simp) ?_
    rintro ⟨rfl, hne⟩
    cases ds with
    | nil => exact hne rfl
    | cons x rest => exact h x rest rfl

theorem parseMod_eq_ok_iff {id : String} {e : String × Document} {p : String × String} :
    parseMod id e = .ok p ↔ p.1 = e.1 ∧ e.2 = .text p.2 := by
  obtain ⟨k, d⟩ := e
  obtain ⟨k', s⟩ := p
  cases d <;> simp [parseMod, eq_comm]

/-- Mods pass one by one exactly when they are all texts, and the pairs are the ones written. -/
theorem mapM_parseMod_eq_ok_iff {id : String} {es : Entries Document} {ps : Entries String} :
    es.mapM (parseMod id) = .ok ps ↔
      (∀ e ∈ es, ∃ s, e.2 = .text s) ∧ ps = (Document.object es).textMembers := by
  rw [Fault.mapM_eq_ok_iff]
  induction es generalizing ps with
  | nil => cases ps <;> simp [Document.textMembers, Document.members?]
  | cons e rest ih =>
    obtain ⟨k, d⟩ := e
    rw [List.forall₂_cons_left_iff]
    constructor
    · rintro ⟨⟨k', s⟩, qs, hp, hrest, rfl⟩
      obtain ⟨rfl, rfl⟩ := parseMod_eq_ok_iff.1 hp
      obtain ⟨htexts, rfl⟩ := ih.1 hrest
      refine ⟨?_, rfl⟩
      rw [List.forall_mem_cons]
      exact ⟨⟨s, rfl⟩, htexts⟩
    · rintro ⟨htexts, rfl⟩
      obtain ⟨⟨s, rfl⟩, hrest⟩ := List.forall_mem_cons.1 htexts
      exact ⟨(k, s), _, rfl, ih.2 ⟨hrest, rfl⟩, rfl⟩

theorem parseMods_eq_ok_iff {id : String} {d : Option Document} {mods : Mods} :
    parseMods id d = .ok mods ↔ ∃ es, d = some (.object es) ∧ es ≠ [] ∧
      (∀ e ∈ es, ∃ s, e.2 = .text s) ∧ mods = Mods.ofEntries (Document.object es).textMembers := by
  unfold parseMods
  split
  · rename_i e rest h
    obtain ⟨d, rfl, hd⟩ := Option.bind_eq_some_iff.1 h
    rw [Document.members?_eq_some_iff.1 hd, Fault.bind_eq_ok_iff]
    constructor
    · rintro ⟨ps, hps, h⟩
      obtain ⟨htexts, rfl⟩ := mapM_parseMod_eq_ok_iff.1 hps
      cases h
      exact ⟨_, rfl, List.cons_ne_nil _ _, htexts, rfl⟩
    · rintro ⟨es, hes, -, htexts, rfl⟩
      cases hes
      exact ⟨_, mapM_parseMod_eq_ok_iff.2 ⟨htexts, rfl⟩, rfl⟩
  · rename_i h
    refine iff_of_false (by simp) ?_
    rintro ⟨es, rfl, hne, -⟩
    cases es with
    | nil => exact hne rfl
    | cons e rest => exact h e rest rfl

theorem isForcible_eq_true_iff {entry : Document} :
    isForcible entry = true ↔ entry.member? "allowUrlOverrides" = some (.boolean true) := by
  unfold isForcible
  split
  · rename_i b h
    simp [h]
  · rename_i h
    simp only [Bool.false_eq_true, false_iff]
    exact h true

/-! ## Entries -/

theorem parse_eq_ok_iff {r : Registry G} {entry : Document} {v : Variant G} :
    parse r entry = .ok v ↔ ∃ ds,
      entry.member? "id" = some (.text v.id) ∧
      (entry.member? "conditions" = some (.list ds) ∧ ds ≠ []) ∧
      parseMods v.id (entry.member? "mods") = .ok v.mods ∧
      ds.mapM r.instantiate = .ok v.conditions ∧
      Operator.parse (entry.member? "conditionalOperator") = .ok v.operator ∧
      isForcible entry = v.forcible := by
  obtain ⟨id, cs, mods, forcible, op⟩ := v
  constructor
  · intro h
    obtain ⟨id', hid, h⟩ := Fault.bind_eq_ok_iff.1 h
    obtain ⟨ds, hds, h⟩ := Fault.bind_eq_ok_iff.1 h
    obtain ⟨mods', hmods, h⟩ := Fault.bind_eq_ok_iff.1 h
    obtain ⟨cs', hcs, h⟩ := Fault.bind_eq_ok_iff.1 h
    obtain ⟨op', hop, h⟩ := Fault.bind_eq_ok_iff.1 h
    cases h
    exact ⟨ds, parseId_eq_ok_iff.1 hid, specs_eq_ok_iff.1 hds, hmods, hcs, hop, rfl⟩
  · rintro ⟨ds, hid, hds, hmods, hcs, hop, hforcible⟩
    refine Fault.bind_eq_ok_iff.2 ⟨id, parseId_eq_ok_iff.2 hid, ?_⟩
    refine Fault.bind_eq_ok_iff.2 ⟨ds, specs_eq_ok_iff.2 hds, ?_⟩
    refine Fault.bind_eq_ok_iff.2 ⟨mods, hmods, ?_⟩
    refine Fault.bind_eq_ok_iff.2 ⟨cs, hcs, ?_⟩
    refine Fault.bind_eq_ok_iff.2 ⟨op, hop, ?_⟩
    rw [hforcible]
    rfl

/-- The checks of an entry in their order, each made once those before it have passed. -/
theorem parse_eq_error_iff {r : Registry G} {entry : Document} {fault : ConfigError} :
    parse r entry = .error fault ↔ parseId entry = .error fault ∨
      ∃ id, parseId entry = .ok id ∧ (specs id (entry.member? "conditions") = .error fault ∨
      ∃ ds, specs id (entry.member? "conditions") = .ok ds ∧
        (parseMods id (entry.member? "mods") = .error fault ∨
      ∃ mods, parseMods id (entry.member? "mods") = .ok mods ∧
        (ds.mapM r.instantiate = .error fault ∨
      ∃ cs, ds.mapM r.instantiate = .ok cs ∧
        Operator.parse (entry.member? "conditionalOperator") = .error fault))) := by
  have hlast : ∀ (id : String) (cs : List (Condition G)) (mods : Mods),
      (Operator.parse (entry.member? "conditionalOperator") >>= fun op =>
        (pure ⟨id, cs, mods, isForcible entry, op⟩ : Except ConfigError (Variant G))) =
          .error fault ↔ Operator.parse (entry.member? "conditionalOperator") = .error fault := by
    intro id cs mods
    cases Operator.parse (entry.member? "conditionalOperator") <;> simp [bind, Except.bind, pure,
      Except.pure]
  simp only [parse, Fault.bind_eq_error_iff, hlast]

/-- What a checked entry keeps of its document. -/
structure ReadFrom (entry : Document) (v : Variant G) : Prop where
  id : entry.member? "id" = some (.text v.id)
  forcible : v.forcible = true ↔ entry.member? "allowUrlOverrides" = some (.boolean true)
  mods : v.mods = Mods.ofEntries (writtenMods entry)
  mods_ne_nil : writtenMods entry ≠ []

theorem readFrom_of_parse {r : Registry G} {entry : Document} {v : Variant G}
    (h : parse r entry = .ok v) : ReadFrom entry v := by
  obtain ⟨-, hid, -, hmods, -, -, hforcible⟩ := parse_eq_ok_iff.1 h
  obtain ⟨es, hes, hne, htexts, hmods⟩ := parseMods_eq_ok_iff.1 hmods
  have hwritten : writtenMods entry = (Document.object es).textMembers := by
    rw [writtenMods, hes]
  refine ⟨hid, by rw [← hforcible, isForcible_eq_true_iff], by rw [hwritten, hmods], ?_⟩
  rw [hwritten]
  cases es with
  | nil => exact absurd rfl hne
  | cons e rest =>
    obtain ⟨s, hs⟩ := htexts e List.mem_cons_self
    simp [Document.textMembers, Document.members?, Document.text?, hs]

/-! ## Configurations -/

theorem parseAll_eq_ok_iff {r : Registry G} {config : Document} {vs : List (Variant G)} :
    parseAll r config = .ok vs ↔ ∃ entries, config = .list entries ∧
      List.Forall₂ (fun entry v => parse r entry = .ok v) entries vs := by
  unfold parseAll
  split
  · rename_i entries h
    rw [Document.items?_eq_some_iff.1 h, Fault.mapM_eq_ok_iff]
    simp
  · rename_i h
    refine iff_of_false (by simp) ?_
    rintro ⟨entries, rfl, -⟩
    cases h

/-- A configuration fails because it is no list or with the fault of its first entry that fails. -/
theorem parseAll_eq_error_iff {r : Registry G} {config : Document} {fault : ConfigError} :
    parseAll r config = .error fault ↔ (config.items? = none ∧ fault = .notAList) ∨
      ∃ good bad rest, config = .list (good ++ bad :: rest) ∧
        (∀ entry ∈ good, ∃ v, parse r entry = .ok v) ∧ parse r bad = .error fault := by
  unfold parseAll
  split
  · rename_i entries h
    rw [Document.items?_eq_some_iff.1 h, Fault.mapM_eq_error_iff]
    simp [Document.items?]
  · rename_i h
    rw [h]
    constructor
    · intro hfault
      cases hfault
      exact .inl ⟨rfl, rfl⟩
    · rintro (⟨-, rfl⟩ | ⟨good, bad, rest, rfl, -⟩)
      · rfl
      · cases h

/-- Each condition of a checked configuration is built from one that the configuration writes
down. -/
theorem exists_spec_of_parseAll {r : Registry G} {config : Document} {vs : List (Variant G)}
    (h : parseAll r config = .ok vs) {v : Variant G} (hv : v ∈ vs) {c : Condition G}
    (hc : c ∈ v.conditions) : ∃ spec ∈ config.conditionSpecs, r.instantiate spec = .ok c := by
  obtain ⟨entries, rfl, hparsed⟩ := parseAll_eq_ok_iff.1 h
  obtain ⟨entry, hentry, hparse⟩ := rel_of_mem_right hparsed hv
  obtain ⟨ds, -, ⟨hds, -⟩, -, hcs, -, -⟩ := parse_eq_ok_iff.1 hparse
  obtain ⟨spec, hspec, hbuilt⟩ := rel_of_mem_right (Fault.mapM_eq_ok_iff.1 hcs) hc
  exact ⟨spec, Document.mem_conditionSpecs hentry hds hspec, hbuilt⟩

/-- Each condition that a checked configuration writes down is built. -/
theorem exists_condition_of_parseAll {r : Registry G} {config : Document} {vs : List (Variant G)}
    (h : parseAll r config = .ok vs) {spec : Document} (hspec : spec ∈ config.conditionSpecs) :
    ∃ c, r.instantiate spec = .ok c := by
  obtain ⟨entries, rfl, hparsed⟩ := parseAll_eq_ok_iff.1 h
  obtain ⟨entry, hentry, hmem⟩ := List.mem_flatMap.1 hspec
  obtain ⟨v, -, hparse⟩ := rel_of_mem_left hparsed hentry
  obtain ⟨ds, -, ⟨hds, -⟩, -, hcs, -, -⟩ := parse_eq_ok_iff.1 hparse
  rw [hds] at hmem
  obtain ⟨c, -, hbuilt⟩ := rel_of_mem_left (Fault.mapM_eq_ok_iff.1 hcs) hmem
  exact ⟨c, hbuilt⟩

end Variant

end Rollout
