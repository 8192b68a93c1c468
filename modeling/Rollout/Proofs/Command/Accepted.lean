import Rollout.Command.Report
import Rollout.Proofs.Condition.Refused
import Rollout.Proofs.Resolution.Run
import Rollout.Proofs.Schema.Agreement

/-! # Files that are accepted

A file is accepted with the entries that are built from it once it is loaded. Checking it on the
command line, resolving it and loading it against the schema make different checks in different
orders, and yet each of them goes through for the accepted files and for no others. -/
namespace Rollout
set_option autoImplicit false

variable {G : Type}

/-! ## Checks of a configuration -/

theorem violations_of_parseAll {r : Registry G} (hr : r.NoneBlank) {config : Document}
    {vs : List (Variant G)} (h : Variant.parseAll r config = .ok vs) : violations config = [] := by
  obtain ⟨entries, rfl, hparsed⟩ := Variant.parseAll_eq_ok_iff.1 h
  refine violations_eq_nil_iff.2 ⟨entries, rfl, fun entry hentry => ?_⟩
  obtain ⟨v, -, hparse⟩ := rel_of_mem_left hparsed hentry
  exact Variant.isEntry_of_parse hr hparse

theorem exists_instantiate_error_of_violations {r : Registry G} {config : Document}
    (hnil : violations config = []) {fault : ConfigError}
    (h : Variant.parseAll r config = .error fault) :
    ∃ spec tag, spec.member? "type" = some (.text tag) ∧ r.instantiate spec = .error fault := by
  obtain ⟨entries, rfl, hentries⟩ := violations_eq_nil_iff.1 hnil
  obtain ⟨before, entry, after, rfl, -, hbad⟩ := Fault.mapM_eq_error_iff.1 h
  have hentry : entry.IsEntry := hentries entry (by simp)
  obtain ⟨-, -, spec, -, ⟨tag, htag, -⟩, hfault⟩ := Variant.exists_instantiate_error hentry hbad
  exact ⟨spec, tag, htag, hfault⟩

namespace Load

theorem checked_eq_ok_iff {r : Registry G} (hr : r.NoneBlank) {config : Document}
    {vs : List (Variant G)} : checked r config = .ok vs ↔ Variant.parseAll r config = .ok vs := by
  constructor
  · intro h
    unfold checked at h
    split at h
    · split at h
      · rename_i hparse
        cases h
        exact hparse
      · cases h
    · cases h
  · intro h
    simp only [checked, violations_of_parseAll hr h, h]

theorem violations_of_checked {r : Registry G} {config : Document} {fault : ConfigError}
    (h : checked r config = .error (.config fault)) :
    violations config = [] ∧ Variant.parseAll r config = .error fault := by
  unfold checked at h
  split at h
  · rename_i hnil
    split at h
    · cases h
    · rename_i hparse
      cases h
      exact ⟨hnil, hparse⟩
  · cases h

theorem topic_of_checked {config : Document} {fault : ConfigError}
    (h : checked (Registry.builtin : Registry G) config = .error (.config fault)) :
    fault.topic = .unknownTag ∨ fault.topic = .condition := by
  obtain ⟨hnil, hparse⟩ := violations_of_checked h
  obtain ⟨spec, tag, htag, hfault⟩ := exists_instantiate_error_of_violations hnil hparse
  exact Registry.topic_of_instantiate htag hfault

/-! ## Files -/

/-- The file under a path loads, and entries are built from all that it holds. -/
def Accepts (r : Registry G) (path : String) (s : Source) (vs : List (Variant G)) : Prop :=
  ∃ d, file path s = .ok d ∧ Variant.parseAll r d = .ok vs

theorem checkedFile_eq_ok_iff {r : Registry G} (hr : r.NoneBlank) {path : String} {s : Source}
    {vs : List (Variant G)} : checkedFile r path s = .ok vs ↔ Accepts r path s vs := by
  rw [checkedFile, Fault.bind_eq_ok_iff]
  constructor
  · rintro ⟨d, hfile, hchecked⟩
    exact ⟨d, hfile, (checked_eq_ok_iff hr).1 hchecked⟩
  · rintro ⟨d, hfile, hparse⟩
    exact ⟨d, hfile, (checked_eq_ok_iff hr).2 hparse⟩

theorem text_ne_config {format : Format} {t : String} {fault : ConfigError} :
    text format t ≠ .error (.config fault) := by
  intro h
  cases format with
  | json =>
    change json t = _ at h
    unfold json at h
    split at h <;> cases h
  | yaml =>
    change yaml t = _ at h
    unfold yaml at h
    split at h <;> cases h

theorem file_ne_config {path : String} {s : Source} {fault : ConfigError} :
    file path s ≠ .error (.config fault) := by
  intro h
  unfold file source at h
  split at h
  · exact text_ne_config h
  · cases h

theorem topic_of_checkedFile {path : String} {s : Source} {fault : ConfigError}
    (h : checkedFile (Registry.builtin : Registry G) path s = .error (.config fault)) :
    fault.topic = .unknownTag ∨ fault.topic = .condition := by
  obtain hfile | ⟨d, -, hchecked⟩ := Fault.bind_eq_error_iff.1 h
  · exact absurd hfile file_ne_config
  · exact topic_of_checked hchecked

end Load

/-! ## Requests -/

namespace Request

def problemLines (ps : List String) : String :=
  String.join (ps.map fun p => Report.line ("ERROR: " ++ p))

theorem problems_of_parse {d : Document} {vs : List (Variant Generator)}
    (h : engine.parse d = .ok vs) : problems d = [] := by
  have hnil : violations d = [] := violations_of_parseAll Registry.noneBlank_builtin h
  simp only [problems, hnil, h, List.map_nil, List.append_nil]

theorem problems_of_error {d : Document} {fault : ConfigError}
    (h : engine.parse d = .error fault) :
    problems d = (violations d).map Violation.text ++ [fault.message] := by
  simp only [problems, h]

variable {files : String → Source} {config : String}

theorem validation_of_accepts {vs : List (Variant Generator)}
    (h : Load.Accepts engine.registry config (files config) vs) :
    validation files config = .printed ("OK: " ++ config) := by
  obtain ⟨d, hfile, hparse⟩ := h
  simp only [validation, hfile, problems_of_parse hparse]

/-- The violations of the schema come before the fault at which building the entries stops. -/
theorem validation_of_error {d : Document} (hfile : Load.file config (files config) = .ok d)
    {fault : ConfigError} (h : engine.parse d = .error fault) :
    validation files config =
      ⟨1, problemLines ((violations d).map Violation.text ++ [fault.message]), ""⟩ := by
  have hne : (violations d).map Violation.text ++ [fault.message] ≠ [] :=
    List.append_ne_nil_of_right_ne_nil _ (List.cons_ne_nil _ _)
  simp only [validation, hfile, problems_of_error h, problemLines]

theorem validation_code_eq_zero_iff : (validation files config).code = 0 ↔
    ∃ vs, Load.Accepts engine.registry config (files config) vs := by
  constructor
  · intro hcode
    cases hfile : Load.file config (files config) with
    | error e =>
      simp only [validation, hfile] at hcode
      cases hcode
    | ok d =>
      cases hparse : engine.parse d with
      | ok vs => exact ⟨vs, d, hfile, hparse⟩
      | error fault =>
        rw [validation_of_error hfile hparse] at hcode
        cases hcode
  · rintro ⟨vs, hvs⟩
    rw [validation_of_accepts hvs]
    rfl

/-- Nothing that happens after the entries are built can fail. -/
theorem resolution_isOk_iff {entropy : Generator} {o : Options} {ctx : Context}
    (hctx : o.context? files = .ok ctx) {r : Except Failure Resolution}
    (h : resolution files entropy config o = some r) :
    (∃ resolved, r = .ok resolved) ↔ ∃ vs, Load.Accepts engine.registry config (files config) vs := by
  unfold resolution at h
  cases hfile : Load.file config (files config) with
  | error e =>
    simp only [hfile, Option.some_inj] at h
    subst h
    refine iff_of_false (by simp) ?_
    rintro ⟨vs, d, hd, -⟩
    rw [hfile] at hd
    cases hd
  | ok d =>
    simp only [hfile, hctx] at h
    obtain ⟨run, hrun, rfl⟩ := Option.map_eq_some_iff.1 h
    obtain ⟨fault, hparse, rfl⟩ | ⟨vs, u, hparse, -, rfl⟩ := Engine.resolveIn_cases hrun
    · refine iff_of_false (by simp [Except.mapError]) ?_
      rintro ⟨vs, d', hd', hvs⟩
      cases hfile.symm.trans hd'
      cases hparse.symm.trans hvs
    · exact iff_of_true ⟨_, rfl⟩ ⟨vs, d, hfile, hparse⟩

theorem resolutionReport_code_eq_zero_iff {entropy : Generator} {doc : Resolution → Document}
    {o : Options} {ctx : Context} (hctx : o.context? files = .ok ctx) {rep : Report}
    (h : resolutionReport files entropy doc config o = some rep) :
    rep.code = 0 ↔ ∃ vs, Load.Accepts engine.registry config (files config) vs := by
  obtain ⟨r, hr, rfl⟩ := Option.map_eq_some_iff.1 h
  rw [← resolution_isOk_iff hctx hr]
  cases r with
  | ok resolved => exact iff_of_true rfl ⟨resolved, rfl⟩
  | error f => exact iff_of_false (Nat.one_ne_zero) (by simp)

end Request

/-! ## Command lines -/

theorem run_of_arguments {files : String → Source} {entropy : Generator} {time : String}
    {args : List String} {request : Request} (h : Request.ofArguments args = .ok request) :
    run files entropy time args = request.report files entropy time := by
  simp only [run, h]

/-- Whatever the files, two command lines about the same file, one that checks it and one that
resolves it without a context, end with the code of success for the same files, and a file that is
loaded against the schema passes for the same ones and with the same entries. -/
theorem run_accepts_alike (files : String → Source) (entropy : Generator) (time : String)
    {config : String} {o : Options} {args args' : List String}
    (hvalidate : Request.ofArguments args = .ok (.validate config))
    (hresolve : Request.ofArguments args' = .ok (.mods config o) ∨
      Request.ofArguments args' = .ok (.explain config o)) (hcontext : o.context = none) :
    (∃ rep, run files entropy time args = some rep ∧
      (rep.code = 0 ↔ ∃ vs : List (Variant Generator),
        Load.Accepts .builtin config (files config) vs) ∧
      ∀ d, Load.file config (files config) = .ok d → rep.code ≠ 0 → ∃ fault,
        Variant.parseAll (.builtin : Registry Generator) d = .error fault ∧
        rep.out = Request.problemLines ((violations d).map Violation.text ++ [fault.message])) ∧
    (∀ rep, run files entropy time args' = some rep →
      (rep.code = 0 ↔ ∃ vs : List (Variant Generator),
        Load.Accepts .builtin config (files config) vs)) ∧
    (∀ vs : List (Variant Generator), Load.checkedFile .builtin config (files config) = .ok vs ↔
      Load.Accepts .builtin config (files config) vs) ∧
    (∀ d (vs : List (Variant Generator)), Load.file config (files config) = .ok d →
      Variant.parseAll .builtin d = .ok vs → violations d = []) ∧
    (∀ fault, Load.checkedFile (.builtin : Registry Generator) config (files config) =
      .error (.config fault) → fault.topic = .unknownTag ∨ fault.topic = .condition) := by
  refine ⟨⟨_, run_of_arguments hvalidate, Request.validation_code_eq_zero_iff, ?_⟩, ?_, ?_, ?_, ?_⟩
  · intro d hfile hcode
    cases hparse : Request.engine.parse d with
    | ok vs =>
      have hzero := Request.validation_code_eq_zero_iff.2 ⟨vs, d, hfile, hparse⟩
      exact absurd hzero hcode
    | error fault =>
      refine ⟨fault, hparse, ?_⟩
      rw [Request.validation_of_error hfile hparse]
  · intro rep hrep
    have hctx : o.context? files = .ok (o.apply Context.empty) := by
      simp only [Options.context?, hcontext]
    rcases hresolve with hargs | hargs
    · rw [run_of_arguments hargs] at hrep
      exact Request.resolutionReport_code_eq_zero_iff hctx hrep
    · rw [run_of_arguments hargs] at hrep
      exact Request.resolutionReport_code_eq_zero_iff hctx hrep
  · intro vs
    exact Load.checkedFile_eq_ok_iff Registry.noneBlank_builtin
  · intro d vs _ hparse
    exact violations_of_parseAll Registry.noneBlank_builtin hparse
  · intro fault hfault
    exact Load.topic_of_checkedFile hfault

/-- A file of one entry, whose condition is of the given kind. -/
def saleText (tag : String) : String :=
  "[\x7b\x22id\x22: \x22sale\x22, \x22conditions\x22: [\x7b\x22type\x22: \x22" ++ tag ++
    "\x22\x7d], \x22mods\x22: \x7b\x22banner\x22: \x22saleBanner\x22\x7d\x7d]"

def saleFiles (path : String) : Source :=
  if path = "sale.json" then .ok (Text.bytes (saleText "ALWAYS"))
  else if path = "holiday.json" then .ok (Text.bytes (saleText "HOLIDAY"))
  else .error .missing

def bobOptions : Options := ⟨none, some "bob", ["staff", "beta"], some "variants=x", some 3⟩

def bobArguments (path : String) : List String :=
  ["explain", path, "--username", "bob", "--group=staff", "--group", "beta",
    "--search=variants=x", "--seed", "3"]

theorem run_accepts_alike_sale :
    Request.ofArguments ["validate", "sale.json"] = .ok (.validate "sale.json") ∧
    Request.ofArguments (bobArguments "sale.json") = .ok (.explain "sale.json" bobOptions) ∧
    (∃ rep rep' vs, run saleFiles (Generator.seeded 0) "" ["validate", "sale.json"] = some rep ∧
      rep.code = 0 ∧
      run saleFiles (Generator.seeded 0) "" (bobArguments "sale.json") = some rep' ∧
      rep'.code = 0 ∧
      Load.checkedFile (.builtin : Registry Generator) "sale.json" (saleFiles "sale.json") =
        .ok vs) ∧
    (∀ rep, run saleFiles (Generator.seeded 0) "" (bobArguments "holiday.json") = some rep →
      rep.code ≠ 0) := by
  have hsale : Request.ofArguments ["validate", "sale.json"] = .ok (.validate "sale.json") := rfl
  have hholiday : Request.ofArguments ["validate", "holiday.json"] =
      .ok (.validate "holiday.json") := rfl
  have hbob : Request.ofArguments (bobArguments "sale.json") =
      .ok (.explain "sale.json" bobOptions) := rfl
  have hbob' : Request.ofArguments (bobArguments "holiday.json") =
      .ok (.explain "holiday.json" bobOptions) := rfl
  have hzero : (run saleFiles (Generator.seeded 0) "" ["validate", "sale.json"]).map Report.code =
      some 0 := by
    decide +kernel
  have hone : (run saleFiles (Generator.seeded 0) "" ["validate", "holiday.json"]).map Report.code =
      some 1 := by
    decide +kernel
  have hsome : (run saleFiles (Generator.seeded 0) "" (bobArguments "sale.json")).isSome := by
    decide +kernel
  obtain ⟨⟨rep, hrep, hvalid, -⟩, hresolved, hloaded, -⟩ :=
    run_accepts_alike saleFiles (Generator.seeded 0) "" hsale (.inr hbob) rfl
  obtain ⟨⟨refusal, hrefusal, hinvalid, -⟩, hunresolved, -⟩ :=
    run_accepts_alike saleFiles (Generator.seeded 0) "" hholiday (.inr hbob') rfl
  rw [hrep] at hzero
  rw [hrefusal] at hone
  obtain ⟨vs, hvs⟩ := hvalid.1 (Option.some_inj.1 hzero)
  obtain ⟨rep', hrep'⟩ := Option.isSome_iff_exists.1 hsome
  refine ⟨hsale, hbob, ⟨rep, rep', vs, hrep, hvalid.2 ⟨vs, hvs⟩, hrep',
    (hresolved rep' hrep').2 ⟨vs, hvs⟩, (hloaded vs).2 hvs⟩, fun failure hfailure hcode => ?_⟩
  have haccepted := hinvalid.2 ((hunresolved failure hfailure).1 hcode)
  have hrefused : refusal.code = 1 := Option.some_inj.1 hone
  omega

end Rollout
