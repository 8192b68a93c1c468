import Rollout.Proofs.Condition.Unread
import Rollout.Proofs.Resolution.Run

/-! # Inputs that a configuration opts into

A change that no condition of a run notices goes through the whole run: the tests are the same, in
the same order, and the scopes differ as they did at the start. So the URL, the user, the groups,
the experiment service and the random numbers matter only to a configuration that asks for them. -/
namespace Rollout
set_option autoImplicit false

variable {G : Type}

/-! ## What a configuration asks for -/

namespace Document

/-- Some condition of the configuration has the tag. -/
def Uses (config : Document) (tag : String) : Prop :=
  ∃ spec ∈ config.conditionSpecs, spec.member? "type" = some (.text tag)

/-- Some entry of the configuration lets the URL force it on. -/
def Forcible (config : Document) : Prop :=
  ∃ entry ∈ config.items?.getD [], entry.member? "allowUrlOverrides" = some (.boolean true)

end Document

theorem Registry.OfBuiltinKinds.tag_ne {r : Registry G} {config : Document}
    (h : r.OfBuiltinKinds config) {vs : List (Variant G)}
    (hparse : Variant.parseAll r config = .ok vs) {tag : String} (huses : ¬config.Uses tag) :
    ∀ c ∈ vs.flatMap Variant.conditions, c.tag ≠ tag := by
  rintro c hc rfl
  exact huses (h.exists_spec hparse c hc).2

theorem Variant.isForced_of_not_forcible {r : Registry G} {config : Document}
    {vs : List (Variant G)} (hparse : parseAll r config = .ok vs) (h : ¬config.Forcible)
    (requested : List String) : ∀ v ∈ vs, v.isForced requested = false := by
  intro v hv
  obtain ⟨entries, rfl, hparsed⟩ := parseAll_eq_ok_iff.1 hparse
  obtain ⟨entry, hentry, hread⟩ := rel_of_mem_right hparsed hv
  have hforcible : v.forcible = false := by
    rw [Bool.eq_false_iff, ne_eq, (readFrom_of_parse hread).forcible]
    exact fun htrue => h ⟨entry, hentry, htrue⟩
  rw [isForced, hforcible, Bool.false_and]

/-! ## Changes along a run -/

section Runs

variable [RandomSource G] {ctx ctx' : Context} {f : Scope G → Scope G}

theorem Operator.evaluate_ignores (op : Operator) {cs : List (Condition G)}
    (h : ∀ c ∈ cs, c.Ignores ctx ctx' f) (s : Scope G) :
    op.evaluate ctx' cs (f s) = (op.evaluate ctx cs s).map (Run.mapScope f) := by
  induction cs generalizing s with
  | nil => rfl
  | cons c rest ih =>
    have hfirst := h c List.mem_cons_self s
    have hrest := ih fun d hd => h d (List.mem_cons_of_mem c hd)
    cases hc : c.test ctx s with
    | none =>
      rw [hc, Option.map_none] at hfirst
      simp [evaluate, hc, hfirst]
    | some t =>
      rw [hc, Option.map_some] at hfirst
      by_cases hn : t.value = op.neutral
      · simp [evaluate, hc, hfirst, hn, Run.mapScope, Run.andThen, Run.noting, hrest,
          Function.comp_def]
      · simp [evaluate, hc, hfirst, hn, Run.mapScope]

theorem Variant.activation_ignores {requested requested' : List String} {v : Variant G}
    (hforced : v.isForced requested' = v.isForced requested)
    (h : ∀ c ∈ v.conditions, c.Ignores ctx ctx' f) (s : Scope G) :
    v.activation requested' ctx' (f s) =
      (v.activation requested ctx s).map (Run.mapScope f) := by
  cases hf : v.isForced requested with
  | true =>
    rw [activation_of_forced hf, activation_of_forced (hforced.trans hf)]
    rfl
  | false =>
    rw [activation_eq_map hf, activation_eq_map (hforced.trans hf), v.operator.evaluate_ignores h,
      Option.map_map, Option.map_map]
    rfl

theorem Variant.activations_ignores {requested requested' : List String} {vs : List (Variant G)}
    (hforced : ∀ v ∈ vs, v.isForced requested' = v.isForced requested)
    (h : ∀ c ∈ vs.flatMap Variant.conditions, c.Ignores ctx ctx' f) (s : Scope G) :
    activations requested' ctx' vs (f s) =
      (activations requested ctx vs s).map (Run.mapScope f) := by
  -- Each entry leaves scopes that differ by `f` again, so the hypothesis is about every scope.
  induction vs generalizing s with
  | nil => rfl
  | cons v rest ih =>
    rw [List.flatMap_cons] at h
    have hfirst := activation_ignores (hforced v List.mem_cons_self)
      (fun c hc => h c (List.mem_append_left _ hc)) s
    have hrest := ih (fun w hw => hforced w (List.mem_cons_of_mem v hw))
      fun c hc => h c (List.mem_append_right _ hc)
    cases hv : v.activation requested ctx s with
    | none =>
      rw [hv, Option.map_none] at hfirst
      simp [activations, hv, hfirst]
    | some t =>
      rw [hv, Option.map_some] at hfirst
      cases ha : t.value.isActive <;>
        simp [activations, hv, hfirst, ha, Run.mapScope, Run.andThen, Run.noting, Run.map, hrest,
          Function.comp_def]

/-- Contexts in which the tests are the same make no difference. -/
theorem Variant.activations_eq_of_test_eq {requested requested' : List String}
    {vs : List (Variant G)} (hforced : ∀ v ∈ vs, v.isForced requested' = v.isForced requested)
    (h : ∀ c ∈ vs.flatMap Variant.conditions, c.test ctx' = c.test ctx) (s : Scope G) :
    activations requested' ctx' vs s = activations requested ctx vs s := by
  have hrun := activations_ignores hforced (fun c hc => Condition.ignores_of_test_eq (h c hc)) s
  rw [Run.mapScope_id, Option.map_id] at hrun
  exact hrun

end Runs

/-! ## Every resolution -/

/-- What a resolution comes to: its mods and its outcomes, or its fault, and the scope it leaves. -/
def Engine.effect (run : Run G (Except ConfigError Resolution)) :
    Except ConfigError (Mods × List Outcome) × Scope G :=
  (run.value.map fun r => (r.mods, r.outcomes), run.scope)

section Resolutions

variable [RandomSource G] {e : Engine G} {config : Document} {vs : List (Variant G)}

theorem resolveIn_eq_of_test_eq {ctx ctx' : Context} (h : e.parse config = .ok vs)
    (htest : ∀ c ∈ vs.flatMap Variant.conditions, c.test ctx' = c.test ctx)
    (hrequested : e.requested ctx' = e.requested ctx) (s : Scope G) :
    e.resolveIn config ctx' s = e.resolveIn config ctx s := by
  rw [Engine.resolveIn_eq_map h, Engine.resolveIn_eq_map h, hrequested,
    Variant.activations_eq_of_test_eq (fun _ _ => rfl) htest]
  simp only [Engine.resolution, Engine.allNotes, hrequested]

variable (h : e.parse config = .ok vs) (hkinds : e.registry.OfBuiltinKinds config)
include h hkinds

theorem resolveIn_url (hurl : ¬config.Forcible) (ctx : Context) (s : Scope G)
    (search location : Option String) :
    ({ e with location := location }.resolveIn config { ctx with search := search } s).map
      Engine.effect = (e.resolveIn config ctx s).map Engine.effect := by
  have hlocation : ({ e with location := location } : Engine G).parse config = .ok vs := h
  have hforced : ∀ v ∈ vs,
      v.isForced (Engine.requested { e with location := location } { ctx with search := search }) =
        v.isForced (e.requested ctx) := by
    intro v hv
    rw [Variant.isForced_of_not_forcible h hurl _ v hv,
      Variant.isForced_of_not_forcible h hurl _ v hv]
  have htest : ∀ c ∈ vs.flatMap Variant.conditions,
      c.test { ctx with search := search } = c.test ctx := fun c hc =>
    (hkinds.isBuiltin h c hc).test_search ctx search
  rw [Engine.resolveIn_eq_map h, Engine.resolveIn_eq_map hlocation,
    Variant.activations_eq_of_test_eq hforced htest, Option.map_map, Option.map_map]
  rfl

theorem resolveIn_user (husers : ¬config.Uses "USERS") (hmod : ¬config.Uses "USERNAME_MOD")
    (ctx : Context) (s : Scope G) (username : Option String) (hash : Option (String → Int64)) :
    e.resolveIn config { ctx with username := username, hash := hash } s =
      e.resolveIn config ctx s := by
  have htest : ∀ c ∈ vs.flatMap Variant.conditions,
      c.test { ctx with username := username, hash := hash } = c.test ctx := fun c hc =>
    (hkinds.isBuiltin h c hc).test_user (hkinds.tag_ne h husers c hc) (hkinds.tag_ne h hmod c hc)
      ctx username hash
  exact resolveIn_eq_of_test_eq h htest rfl s

theorem resolveIn_groups (hgroups : ¬config.Uses "GROUPS") (ctx : Context) (s : Scope G)
    (groups : Option (List String)) :
    e.resolveIn config { ctx with groups := groups } s = e.resolveIn config ctx s := by
  have htest : ∀ c ∈ vs.flatMap Variant.conditions,
      c.test { ctx with groups := groups } = c.test ctx := fun c hc =>
    (hkinds.isBuiltin h c hc).test_groups (hkinds.tag_ne h hgroups c hc) ctx groups
  exact resolveIn_eq_of_test_eq h htest rfl s

theorem resolveIn_service (hexperiments : ¬config.Uses "GOOGLE_EXPERIMENTS") (ctx : Context)
    (s : Scope G) (engineService scopeService : Option Service) :
    { e with service := engineService }.resolveIn config ctx (s.withService scopeService) =
      (e.resolveIn config ctx s).map
        (Run.mapScope fun t => t.withService (scopeService <|> engineService)) := by
  have hservice : ({ e with service := engineService } : Engine G).parse config = .ok vs := h
  have hrun := Variant.activations_ignores (fun v _ => Eq.refl (v.isForced (e.requested ctx)))
    (fun c hc => (hkinds.isBuiltin h c hc).ignores_service (hkinds.tag_ne h hexperiments c hc) ctx
      (scopeService <|> engineService)) (s.inherit e.service)
  rw [Engine.resolveIn_eq_map h, Engine.resolveIn_eq_map hservice]
  refine (congrArg (Option.map _) hrun).trans ?_
  rw [Option.map_map, Option.map_map]
  rfl

theorem resolveIn_draws (hrandom : ¬config.Uses "RANDOM") (hmod : ¬config.Uses "RANDOM_MOD")
    (ctx : Context) (s : Scope G) :
    ∃ r service notes, ∀ source bucket tries,
      e.resolveIn config ctx (s.withDraws source bucket tries) =
        some ⟨.ok r, (s.withDraws source bucket tries).withService service, notes⟩ := by
  have hbuiltin := hkinds.isBuiltin h
  have htags := hkinds.tag_ne h hmod
  have hanswers : (Variant.activations (e.requested ctx) ctx vs (s.inherit e.service)).isSome :=
    Variant.activations_isSome fun c hc s' _ => (hbuiltin c hc).test_isSome (htags c hc) ctx s'
  obtain ⟨u, hu⟩ := Option.isSome_iff_exists.1 hanswers
  refine ⟨e.resolution ctx vs u.value, u.scope.service, e.allNotes ctx vs u, ?_⟩
  intro source bucket tries
  have hrun := Variant.activations_ignores (fun v _ => Eq.refl (v.isForced (e.requested ctx)))
    (fun c hc => (hbuiltin c hc).ignores_draws (hkinds.tag_ne h hrandom c hc) (htags c hc) ctx
      source bucket tries) (s.inherit e.service)
  rw [hu] at hrun
  exact (Engine.resolveIn_eq_some_iff h).2 ⟨_, hrun, rfl⟩

/-- A resolution depends on the URL, the user, the groups, the experiment service and the random
numbers only as far as its configuration asks for them, and it leaves the random numbers and the
bucket that it does not ask for as they were. -/
theorem resolveIn_opted_in (ctx : Context) (s : Scope G) :
    (¬config.Forcible → ∀ search location,
      ({ e with location := location }.resolveIn config { ctx with search := search } s).map
        Engine.effect = (e.resolveIn config ctx s).map Engine.effect) ∧
    (¬config.Uses "USERS" → ¬config.Uses "USERNAME_MOD" → ∀ username hash,
      e.resolveIn config { ctx with username := username, hash := hash } s =
        e.resolveIn config ctx s) ∧
    (¬config.Uses "GROUPS" → ∀ groups,
      e.resolveIn config { ctx with groups := groups } s = e.resolveIn config ctx s) ∧
    (¬config.Uses "GOOGLE_EXPERIMENTS" → ∀ engineService scopeService,
      { e with service := engineService }.resolveIn config ctx (s.withService scopeService) =
        (e.resolveIn config ctx s).map
          (Run.mapScope fun t => t.withService (scopeService <|> engineService))) ∧
    (¬config.Uses "RANDOM" → ¬config.Uses "RANDOM_MOD" → ∃ r service notes,
      ∀ source bucket tries, e.resolveIn config ctx (s.withDraws source bucket tries) =
        some ⟨.ok r, (s.withDraws source bucket tries).withService service, notes⟩) :=
  ⟨fun hurl => resolveIn_url h hkinds hurl ctx s,
    fun husers hmod => resolveIn_user h hkinds husers hmod ctx s,
    fun hgroups => resolveIn_groups h hkinds hgroups ctx s,
    fun hexperiments => resolveIn_service h hkinds hexperiments ctx s,
    fun hrandom hmod => resolveIn_draws h hkinds hrandom hmod ctx s⟩

end Resolutions

/-- A configuration of one entry with one condition. -/
def loneEntry (condition : Document) : Document := .list [.object [("id", .text "page"),
  ("conditions", .list [condition]), ("mods", .object [("page", .text "newPage")])]]

def listedUsers : Document :=
  loneEntry (.object [("type", .text "USERS"), ("values", .list [.text "ann"])])

def thirdVariation : Document :=
  loneEntry (.object [("type", .text "GOOGLE_EXPERIMENTS"), ("variation", .number (.percent 3))])

def annContext : Context := ⟨some "ann", some ["staff"], none, none⟩

def seededScope : Scope Generator := Scope.fresh (Generator.seeded 7)

theorem resolveIn_opted_in_listedUsers :
    (∃ vs, (Engine.standard : Engine Generator).parse listedUsers = .ok vs) ∧
    (Engine.standard : Engine Generator).registry.OfBuiltinKinds listedUsers ∧
    ¬listedUsers.Forcible ∧
    ({ Engine.standard with location := some "?variants=page" }.resolveIn listedUsers
      { annContext with search := some "?variants=page" } seededScope).map Engine.effect =
        (Engine.standard.resolveIn listedUsers annContext seededScope).map Engine.effect ∧
    ¬listedUsers.Uses "GROUPS" ∧
    Engine.standard.resolveIn listedUsers { annContext with groups := none } seededScope =
      Engine.standard.resolveIn listedUsers annContext seededScope ∧
    ¬listedUsers.Uses "GOOGLE_EXPERIMENTS" ∧
    { Engine.standard with service := some (Service.fixed 1) }.resolveIn listedUsers annContext
      (seededScope.withService none) =
        (Engine.standard.resolveIn listedUsers annContext seededScope).map
          (Run.mapScope fun t => t.withService (some (Service.fixed 1))) ∧
    ¬listedUsers.Uses "RANDOM" ∧ ¬listedUsers.Uses "RANDOM_MOD" ∧
    (∃ r service notes, Engine.standard.resolveIn listedUsers annContext
      (seededScope.withDraws (Generator.stepping 1 2) none 0) = some ⟨.ok r,
        (seededScope.withDraws (Generator.stepping 1 2) none 0).withService service, notes⟩) ∧
    (∃ vs, (Engine.standard : Engine Generator).parse thirdVariation = .ok vs) ∧
    (Engine.standard : Engine Generator).registry.OfBuiltinKinds thirdVariation ∧
    ¬thirdVariation.Uses "USERS" ∧ ¬thirdVariation.Uses "USERNAME_MOD" ∧
    Engine.standard.resolveIn thirdVariation
      { annContext with username := none, hash := some fun _ => 42 } seededScope =
        Engine.standard.resolveIn thirdVariation annContext seededScope := by
  have hlisted : ∀ tag, tag ≠ "USERS" → ¬listedUsers.Uses tag := by
    rintro tag hne ⟨spec, hspec, htag⟩
    cases List.mem_singleton.1 hspec
    cases htag
    exact hne rfl
  have hthird : ∀ tag, tag ≠ "GOOGLE_EXPERIMENTS" → ¬thirdVariation.Uses tag := by
    rintro tag hne ⟨spec, hspec, htag⟩
    cases List.mem_singleton.1 hspec
    cases htag
    exact hne rfl
  have hforcible : ¬listedUsers.Forcible := by
    rintro ⟨entry, hentry, htrue⟩
    cases List.mem_singleton.1 hentry
    cases htrue
  have hok : ((Engine.standard : Engine Generator).parse listedUsers).isOk = true := by
    decide +kernel
  have hok' : ((Engine.standard : Engine Generator).parse thirdVariation).isOk = true := by
    decide +kernel
  obtain ⟨vs, hvs⟩ := Fault.exists_of_isOk hok
  obtain ⟨ws, hws⟩ := Fault.exists_of_isOk hok'
  have hkinds := Registry.ofBuiltinKinds_of_parseAll hvs
  have hkinds' := Registry.ofBuiltinKinds_of_parseAll hws
  obtain ⟨hurl, -, hgroups, hservice, hdraws⟩ :=
    resolveIn_opted_in hvs hkinds annContext seededScope
  obtain ⟨-, huser, -, -, -⟩ := resolveIn_opted_in hws hkinds' annContext seededScope
  have hnogroups := hlisted "GROUPS" (by decide)
  have hnoservice := hlisted "GOOGLE_EXPERIMENTS" (by decide)
  have hnorandom := hlisted "RANDOM" (by decide)
  have hnobucket := hlisted "RANDOM_MOD" (by decide)
  have hnousers := hthird "USERS" (by decide)
  have hnonames := hthird "USERNAME_MOD" (by decide)
  obtain ⟨r, service, notes, hrun⟩ := hdraws hnorandom hnobucket
  exact ⟨⟨vs, hvs⟩, hkinds, hforcible, hurl hforcible _ _, hnogroups, hgroups hnogroups _,
    hnoservice, hservice hnoservice _ _, hnorandom, hnobucket, ⟨r, service, notes, hrun _ _ _⟩,
    ⟨ws, hws⟩, hkinds', hnousers, hnonames, huser hnousers hnonames _ _⟩

end Rollout
