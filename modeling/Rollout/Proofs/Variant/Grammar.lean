import Rollout.Proofs.Condition.Builtin
import Rollout.Proofs.Entries.Extend
import Rollout.Proofs.Fault.Reported
import Rollout.Proofs.Schema.Shape

/-! # The grammar of an entry

The entries that pass are those of a grammar, and a checked entry says what its document says, part by
part. An entry that does not pass is answered with the first of all its faults: those of the id, of
the list of conditions, of the mods, of each condition and of the operator, in this order. -/
namespace Rollout
set_option autoImplicit false

variable {G : Type}

/-! ## Conditions -/

namespace Registry

/-- The condition is built by the kind that is registered under its tag. -/
def Builds (r : Registry G) (spec : Document) (c : Condition G) : Prop :=
  ∃ tag k, spec.member? "type" = some (.text tag) ∧ r.find? tag = some k ∧ k.build spec = .ok c

/-- A condition of a built-in kind has the tag that is written. -/
def KeepsTag (r : Registry G) (spec : Document) (c : Condition G) : Prop :=
  ∀ tag k, spec.member? "type" = some (.text tag) → r.find? tag = some k →
    k ∈ (builtin : Registry G).kinds → c.tag = tag

theorem Builds.keepsTag {r : Registry G} {spec : Document} {c : Condition G}
    (h : r.Builds spec c) : r.KeepsTag spec c := by
  intro tag k htag hk hbuiltin
  obtain ⟨tag', k', htag', hk', hbuild⟩ := h
  cases htag.symm.trans htag'
  cases hk.symm.trans hk'
  rw [(isBuiltin_of_build hbuiltin hbuild).2, (find?_eq_some hk).2]

/-- What is wrong with a condition: its tag, or what the kind under its tag finds fault with. -/
def faults (r : Registry G) (spec : Document) : List ConfigError :=
  match spec.member? "type" with
  | none | some .null => [.missingTag]
  | some (.text tag) =>
    match r.find? tag with
    | some k => Fault.found (k.build spec)
    | none => [.unknownTag tag r.tags]
  | some found => [.tagNotText found]

theorem instantiate_reports (r : Registry G) (spec : Document) :
    Fault.Reports (r.instantiate spec) (r.faults spec) := by
  unfold instantiate faults
  cases spec.member? "type" with
  | none => rfl
  | some d =>
    cases d with
    | text tag =>
      cases hk : r.find? tag with
      | none => simp [hk, Fault.Reports]
      | some k => simpa [hk] using Fault.reports_found (k.build spec)
    | _ => rfl

end Registry

/-! ## Entries -/

/-- Members that are all texts, read as texts and written as documents again. -/
theorem Document.textMembers_written {es : Entries Document} (h : ∀ e ∈ es, ∃ s, e.2 = .text s) :
    (object es).textMembers.map (fun e => (e.1, text e.2)) = es := by
  induction es with
  | nil => rfl
  | cons e rest ih =>
    obtain ⟨⟨s, hs⟩, hrest⟩ := List.forall_mem_cons.1 h
    obtain ⟨k, d⟩ := e
    cases hs
    exact congrArg ((k, text s) :: ·) (ih hrest)

theorem Document.keys_textMembers {es : Entries Document} (h : ∀ e ∈ es, ∃ s, e.2 = .text s) :
    Entries.keys (object es).textMembers = Entries.keys es := by
  have hwritten := congrArg Entries.keys (textMembers_written h)
  rw [← hwritten, Entries.keys, Entries.keys, List.map_map]
  rfl

theorem Mods.entries_ofEntries {es : Entries String} (h : es.Distinct) :
    (ofEntries es).entries = es := Entries.extend_of_distinct h

namespace Variant

/-- The form of the entries that pass. -/
structure Grammar (r : Registry G) (entry : Document) : Prop where
  object : ∃ members, entry = .object members
  id : ∃ id, entry.member? "id" = some (.text id)
  conditions : ∃ specs, entry.member? "conditions" = some (.list specs) ∧ specs ≠ [] ∧
    ∀ spec ∈ specs, (∃ members, spec = .object members) ∧ ∃ c, r.Builds spec c
  mods : ∃ mods, entry.member? "mods" = some mods ∧ mods.IsMods
  operator : ∃ op, Operator.Named (entry.member? "conditionalOperator") op

/-- What a checked entry says is what its document says. An object that was read has each key once, so
its mods are all kept, in their order. -/
structure Transcribes (r : Registry G) (entry : Document) (v : Variant G) : Prop where
  id : entry.member? "id" = some (.text v.id)
  mods : ∃ members, entry.member? "mods" = some (.object members) ∧
    (Entries.Distinct members → v.mods.entries.map (fun e => (e.1, .text e.2)) = members)
  conditions : ∃ specs, entry.member? "conditions" = some (.list specs) ∧
    List.Forall₂ (fun spec c => r.Builds spec c ∧ r.KeepsTag spec c) specs v.conditions
  operator : Operator.Named (entry.member? "conditionalOperator") v.operator
  forcible : v.forcible = true ↔ entry.member? "allowUrlOverrides" = some (.boolean true)

theorem grammar_iff {r : Registry G} {entry : Document} :
    (∃ v, parse r entry = .ok v) ↔ Grammar r entry := by
  constructor
  · rintro ⟨v, h⟩
    obtain ⟨specs, hid, ⟨hspecs, hne⟩, hmods, hcs, hop, -⟩ := parse_eq_ok_iff.1 h
    obtain ⟨members, hmembers, hsome, htexts, -⟩ := parseMods_eq_ok_iff.1 hmods
    refine ⟨Document.isObject_of_member? hid, ⟨_, hid⟩, ⟨specs, hspecs, hne, fun spec hspec => ?_⟩,
      ⟨_, hmembers, members, rfl, hsome, htexts⟩, ⟨_, Operator.parse_eq_ok_iff.1 hop⟩⟩
    obtain ⟨c, -, hc⟩ := rel_of_mem_left (Fault.mapM_eq_ok_iff.1 hcs) hspec
    obtain ⟨tag, k, htag, hk, hbuild⟩ := Registry.instantiate_eq_ok_iff.1 hc
    exact ⟨Document.isObject_of_member? htag, c, tag, k, htag, hk, hbuild⟩
  · rintro ⟨-, ⟨id, hid⟩, ⟨specs, hspecs, hne, hbuilds⟩, ⟨m, hm, members, rfl, hsome, htexts⟩,
      ⟨op, hop⟩⟩
    obtain ⟨cs, hcs⟩ : ∃ cs, specs.mapM r.instantiate = .ok cs := by
      rw [Fault.exists_mapM_eq_ok_iff]
      intro spec hspec
      obtain ⟨-, c, hc⟩ := hbuilds spec hspec
      exact ⟨c, Registry.instantiate_eq_ok_iff.2 hc⟩
    exact ⟨⟨id, cs, _, isForcible entry, op⟩, parse_eq_ok_iff.2 ⟨specs, hid, ⟨hspecs, hne⟩,
      parseMods_eq_ok_iff.2 ⟨members, hm, hsome, htexts, rfl⟩, hcs, Operator.parse_eq_ok_iff.2 hop,
      rfl⟩⟩

theorem transcribes_of_parse {r : Registry G} {entry : Document} {v : Variant G}
    (h : parse r entry = .ok v) : Transcribes r entry v := by
  obtain ⟨specs, hid, ⟨hspecs, -⟩, hmods, hcs, hop, hforcible⟩ := parse_eq_ok_iff.1 h
  obtain ⟨members, hmembers, -, htexts, hmods⟩ := parseMods_eq_ok_iff.1 hmods
  refine ⟨hid, ⟨members, hmembers, fun hdistinct => ?_⟩, ⟨specs, hspecs, ?_⟩,
    Operator.parse_eq_ok_iff.1 hop, ?_⟩
  · have hdistinct' : Entries.Distinct (Document.object members).textMembers := by
      rw [Entries.Distinct, Document.keys_textMembers htexts]
      exact hdistinct
    rw [hmods, Mods.entries_ofEntries hdistinct']
    exact Document.textMembers_written htexts
  · refine (Fault.mapM_eq_ok_iff.1 hcs).imp fun spec c hc => ?_
    have hbuilds : r.Builds spec c := Registry.instantiate_eq_ok_iff.1 hc
    exact ⟨hbuilds, hbuilds.keepsTag⟩
  · rw [← hforcible, isForcible_eq_true_iff]

/-! ## Faults -/

/-- The name of an entry in what is said of it. -/
def name (entry : Document) : String := ((entry.member? "id").bind Document.text?).getD ""

def idFaults (entry : Document) : List ConfigError :=
  match entry.member? "id" with
  | some (.text _) => []
  | _ => [.missingId]

def listFaults (entry : Document) : List ConfigError :=
  match entry.member? "conditions" with
  | some (.list (_ :: _)) => []
  | _ => [.missingConditions (name entry)]

def modFaults (id : String) (mod : String × Document) : List ConfigError :=
  match mod.2 with
  | .text _ => []
  | _ => [.modNotText id mod.1]

/-- Those of each mod, in the order of the keys. -/
def modsFaults (entry : Document) : List ConfigError :=
  match entry.member? "mods" with
  | some (.object (e :: rest)) => (e :: rest).flatMap (modFaults (name entry))
  | _ => [.missingMods (name entry)]

/-- Those of each condition, from left to right. -/
def specFaults (r : Registry G) (entry : Document) : List ConfigError :=
  match entry.member? "conditions" with
  | some (.list specs) => specs.flatMap r.faults
  | _ => []

def operatorFaults (entry : Document) : List ConfigError :=
  match entry.member? "conditionalOperator" with
  | none | some .null => []
  | some (.text s) => if Schema.isOperatorName s then [] else [.badOperator (.text s)]
  | some found => [.badOperator found]

/-- All that is wrong with an entry, in the order of the checks. -/
def faults (r : Registry G) (entry : Document) : List ConfigError :=
  idFaults entry ++ (listFaults entry ++ (modsFaults entry ++ (specFaults r entry ++
    operatorFaults entry)))

theorem parseId_reports (entry : Document) : Fault.Reports (parseId entry) (idFaults entry) := by
  unfold parseId idFaults
  cases entry.member? "id" with
  | none => rfl
  | some d => cases d <;> rfl

theorem specs_reports (entry : Document) :
    Fault.Reports (specs (name entry) (entry.member? "conditions")) (listFaults entry) := by
  unfold specs listFaults
  cases entry.member? "conditions" with
  | none => rfl
  | some d =>
    cases d with
    | list ds => cases ds <;> rfl
    | _ => rfl

theorem parseMod_reports (id : String) (mod : String × Document) :
    Fault.Reports (parseMod id mod) (modFaults id mod) := by
  unfold parseMod modFaults
  cases mod.2 <;> rfl

theorem parseMods_reports (entry : Document) :
    Fault.Reports (parseMods (name entry) (entry.member? "mods")) (modsFaults entry) := by
  unfold parseMods modsFaults
  cases entry.member? "mods" with
  | none => rfl
  | some d =>
    cases d with
    | object es =>
      cases es with
      | nil => rfl
      | cons e rest =>
        have hall : Fault.Reports ((e :: rest).mapM (parseMod (name entry)))
            ((e :: rest).flatMap (modFaults (name entry))) :=
          .mapM fun mod _ => parseMod_reports (name entry) mod
        exact hall.bind_pure Mods.ofEntries
    | _ => rfl

theorem operator_reports (entry : Document) :
    Fault.Reports (Operator.parse (entry.member? "conditionalOperator")) (operatorFaults entry) := by
  unfold operatorFaults
  cases entry.member? "conditionalOperator" with
  | none => rfl
  | some d =>
    cases d with
    | text s =>
      have hname := Operator.isOperatorName_iff s
      rw [Operator.parse]
      split
      · rename_i hand
        simp [hname.2 (.inl hand), Fault.Reports]
      · split
        · rename_i hor
          simp [hname.2 (.inr hor), Fault.Reports]
        · rename_i hand hor
          have hother : Schema.isOperatorName s = false :=
            Bool.eq_false_iff.2 fun h => (hname.1 h).elim hand hor
          simp [hother, Fault.Reports]
    | _ => rfl

theorem parse_reports (r : Registry G) (entry : Document) :
    Fault.Reports (parse r entry) (faults r entry) := by
  unfold parse faults
  apply (parseId_reports entry).bind
  intro id hid
  have hname : id = name entry := by
    rw [name, parseId_eq_ok_iff.1 hid]
    rfl
  rw [hname]
  apply (specs_reports entry).bind
  intro ds hds
  have hspecs : specFaults r entry = ds.flatMap r.faults := by
    rw [specFaults, (specs_eq_ok_iff.1 hds).1]
  rw [hspecs]
  apply (parseMods_reports entry).bind
  intro mods _
  apply (Fault.Reports.mapM fun spec _ => r.instantiate_reports spec).bind
  intro cs _
  exact (operator_reports entry).bind_pure _

/-- An entry passes exactly if it is of the grammar, and then says what its document says: the id, the
mods in their order, a condition for each that is written, the operator and the leave for the URL. An
entry that does not pass is answered with the first of its faults in the order of the checks, whatever
the others are. -/
theorem parse_accepts_grammar (r : Registry G) (entry : Document) :
    ((∃ v, parse r entry = .ok v) ↔ Grammar r entry) ∧
    (∀ v, parse r entry = .ok v → Transcribes r entry v) ∧
    (∀ fault, parse r entry = .error fault ↔ (faults r entry).head? = some fault) :=
  ⟨grammar_iff, fun _ h => transcribes_of_parse h, fun _ => (parse_reports r entry).eq_error_iff⟩

def springEntry : Document := .object [("mods", .object [("theme", .text "spring"),
    ("banner", .text "tulips")]), ("id", .text "spring"),
  ("conditions", .list [.object [("type", .text "USERNAME_MOD"), ("from", .number (.percent 0)),
    ("to", .number (.percent 50))], .object [("type", .text "ALWAYS")]]),
  ("conditionalOperator", .text "aNd"), ("allowUrlOverrides", .text "true")]

/-- An entry with a fault in a mod, in each condition and in the operator. -/
def wiltedEntry : Document := .object [("mods", .object [("theme", .text "spring"),
    ("banner", .null)]), ("id", .text "spring"),
  ("conditions", .list [.object [("type", .null)],
    .object [("type", .text "USERS"), ("values", .list [])]]),
  ("conditionalOperator", .boolean true)]

theorem parse_accepts_grammar_spring :
    (∃ v, parse (Registry.builtin : Registry Unit) springEntry = .ok v ∧
      Transcribes Registry.builtin springEntry v) ∧
    faults (Registry.builtin : Registry Unit) wiltedEntry = [.modNotText "spring" "banner",
      .missingTag, .badField "USERS" "values" .texts, .badOperator (.boolean true)] ∧
    parse (Registry.builtin : Registry Unit) wiltedEntry =
      .error (.modNotText "spring" "banner") := by
  have hok : (parse (Registry.builtin : Registry Unit) springEntry).isOk = true := by decide +kernel
  have hfaults : faults (Registry.builtin : Registry Unit) wiltedEntry =
      [.modNotText "spring" "banner", .missingTag, .badField "USERS" "values" .texts,
        .badOperator (.boolean true)] := rfl
  obtain ⟨v, hv⟩ := Fault.exists_of_isOk hok
  refine ⟨⟨v, hv, (parse_accepts_grammar Registry.builtin springEntry).2.1 v hv⟩, hfaults, ?_⟩
  rw [(parse_accepts_grammar Registry.builtin wiltedEntry).2.2, hfaults]
  rfl

end Variant

end Rollout
