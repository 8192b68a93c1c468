import Rollout.Proofs.Fault.Alike
import Rollout.Proofs.Registry.Latest
import Rollout.Proofs.Resolution.OptedIn

/-! # Registrations that a configuration does not notice

A registration changes what stands under its own tag. A configuration in which no condition has the
tag is therefore read as before, into the same entries or up to the same fault, and is resolved as
before. Only the list of known tags that goes with an unknown tag is the new one. -/
namespace Rollout
set_option autoImplicit false

variable {G : Type}

/-- The same fault, but an unknown tag goes with the tags that are known now. -/
def ConfigError.Relisted (known known' : List String) (fault fault' : ConfigError) : Prop :=
  fault' = fault ∨ ∃ tag, fault = .unknownTag tag known ∧ fault' = .unknownTag tag known'

theorem ConfigError.relisted_refl (known known' : List String) (fault : ConfigError) :
    Relisted known known' fault fault := .inl rfl

/-! ## Reading a configuration -/

section Reading

variable (r : Registry G) (k : Kind G)

/-- Both checks pass with one answer or fail with the same fault, up to the known tags. -/
abbrev Registry.ReadsAlike {α : Type} : Except ConfigError α → Except ConfigError α → Prop :=
  Fault.Alike (ConfigError.Relisted r.tags (r.after [k]).tags)

variable {r k}

theorem Registry.instantiate_alike {spec : Document}
    (h : spec.member? "type" ≠ some (.text k.tag)) :
    r.ReadsAlike k (r.instantiate spec) ((r.after [k]).instantiate spec) := by
  cases hspec : spec.member? "type" with
  | none =>
    simp only [instantiate, hspec]
    exact .error (.inl rfl)
  | some d =>
    cases d with
    | text tag =>
      have hne : k.tag ≠ tag := by
        rintro rfl
        exact h hspec
      rw [instantiate_of_tag r hspec, instantiate_of_tag (r.after [k]) hspec,
        find?_after_singleton_of_ne r hne]
      cases r.find? tag with
      | none => exact .error (.inr ⟨tag, rfl, rfl⟩)
      | some k' => exact .refl (ConfigError.relisted_refl _ _) (k'.build spec)
    | _ =>
      simp only [instantiate, hspec]
      exact .error (.inl rfl)

theorem Variant.parse_alike {entry : Document}
    (h : ∀ ds, entry.member? "conditions" = some (.list ds) →
      ∀ d ∈ ds, d.member? "type" ≠ some (.text k.tag)) :
    r.ReadsAlike k (parse r entry) (parse (r.after [k]) entry) := by
  have hrefl := ConfigError.relisted_refl r.tags (r.after [k]).tags
  apply (Fault.Alike.refl hrefl (parseId entry)).bind
  intro id _
  apply (Fault.Alike.refl hrefl (specs id (entry.member? "conditions"))).bind
  intro ds hds
  apply (Fault.Alike.refl hrefl (parseMods id (entry.member? "mods"))).bind
  intro mods _
  have hconditions : r.ReadsAlike k (ds.mapM r.instantiate) (ds.mapM (r.after [k]).instantiate) :=
    Fault.Alike.mapM fun d hd => Registry.instantiate_alike (h ds (specs_eq_ok_iff.1 hds).1 d hd)
  apply hconditions.bind
  intro cs _
  exact .refl hrefl _

theorem Variant.parseAll_alike {config : Document} (h : ¬config.Uses k.tag) :
    r.ReadsAlike k (parseAll r config) (parseAll (r.after [k]) config) := by
  unfold parseAll
  split
  · rename_i entries hentries
    cases Document.items?_eq_some_iff.1 hentries
    apply Fault.Alike.mapM
    intro entry hentry
    apply parse_alike
    intro ds hds d hd htag
    exact h ⟨d, Document.mem_conditionSpecs hentry hds hd, htag⟩
  · exact .error (.inl rfl)

end Reading

/-! ## Every registration -/

/-- The engine after a registration; a refused one leaves it as it is. -/
def Engine.registering (e : Engine G) (k : Kind G) : Engine G :=
  { e with registry := e.registry.after [k] }

theorem Engine.resolveIn_registering [RandomSource G] {e : Engine G} {k : Kind G}
    {config : Document} {vs : List (Variant G)} (h : e.parse config = .ok vs)
    (h' : (e.registering k).parse config = .ok vs) (ctx : Context) (s : Scope G) :
    (e.registering k).resolveIn config ctx s = e.resolveIn config ctx s := by
  rw [resolveIn_eq_map h, resolveIn_eq_map h']
  rfl

/-- Whatever has been registered, under each tag stands the kind last taken under it; and a
registration goes unnoticed by every configuration in which no condition has its tag, but for the
tags that are listed with an unknown one. -/
theorem registration_local [RandomSource G] {start : Registry G}
    (hstart : start = .empty ∨ start = .builtin) (ks : List (Kind G)) :
    start.LatestWins ks ∧
    ∀ (e : Engine G) (k : Kind G) (config : Document), ¬config.Uses k.tag →
      (∀ vs, e.parse config = .ok vs → (e.registering k).parse config = .ok vs ∧
        ∀ ctx s, (e.registering k).resolveIn config ctx s = e.resolveIn config ctx s) ∧
      (∀ fault, e.parse config = .error fault → ∃ fault',
        (e.registering k).parse config = .error fault' ∧
        ConfigError.Relisted e.registry.tags (e.registering k).registry.tags fault fault') ∧
      (e.registering k).registry.tags =
        if Text.trim k.tag = "" then e.registry.tags else Text.insert k.tag e.registry.tags := by
  constructor
  · rcases hstart with rfl | rfl
    · exact Registry.latestWins .nil (fun k hk => absurd hk List.not_mem_nil) ks
    · exact Registry.latestWins Registry.ascending_builtin Registry.noneBlank_builtin ks
  · intro e k config huses
    have halike : e.registry.ReadsAlike k (e.parse config) ((e.registering k).parse config) :=
      Variant.parseAll_alike huses
    refine ⟨fun vs hvs => ?_, fun fault hfault => ?_, ?_⟩
    · have hvs' := halike.eq_ok hvs
      exact ⟨hvs', fun ctx s => Engine.resolveIn_registering hvs hvs' ctx s⟩
    · exact halike.eq_error hfault
    · exact Registry.tags_after_singleton e.registry k

/-- One entry with one condition, of the kind with the tag. -/
def saleFor (tag : String) : Document := .list [.object [("id", .text "sale"),
  ("conditions", .list [.object [("type", .text tag)]]),
  ("mods", .object [("banner", .text "saleBanner")])]]

theorem not_uses_saleFor {tag tag' : String} (h : tag ≠ tag') : ¬(saleFor tag).Uses tag' := by
  rintro ⟨spec, hspec, htag⟩
  obtain rfl : spec = .object [("type", .text tag)] := List.mem_singleton.1 hspec
  simp [Document.member?, Entries.find?, h] at htag

def weekend : Kind Generator := Kind.constant "WEEKEND" true

/-- Registrations under a new tag, under blanks, under a built-in tag, and under the new tag again. -/
def weekendKinds : List (Kind Generator) :=
  [weekend, Kind.refusing " " "blank", Kind.constant "ALWAYS" false, Kind.userSuffix "WEEKEND" "day"]

def standardEngine : Engine Generator := .standard

theorem registration_local_weekend :
    (Registry.builtin : Registry Generator).LatestWins weekendKinds ∧
    Registry.builtin.taken weekendKinds =
      [weekend, Kind.constant "ALWAYS" false, Kind.userSuffix "WEEKEND" "day"] ∧
    (∃ vs, standardEngine.parse (saleFor "ALWAYS") = .ok vs ∧
      (standardEngine.registering weekend).parse (saleFor "ALWAYS") = .ok vs) ∧
    ∃ fault fault', standardEngine.parse (saleFor "HOLIDAY") = .error fault ∧
      (standardEngine.registering weekend).parse (saleFor "HOLIDAY") = .error fault' ∧
      ConfigError.Relisted standardEngine.registry.tags
        (standardEngine.registering weekend).registry.tags fault fault' := by
  have hstart : standardEngine.registry = .empty ∨ standardEngine.registry = .builtin := .inr rfl
  obtain ⟨hlatest, hlocal⟩ := registration_local hstart weekendKinds
  have hok : standardEngine.parse (saleFor "ALWAYS") = .ok _ := rfl
  have herror : standardEngine.parse (saleFor "HOLIDAY") = .error _ := rfl
  have halways : "ALWAYS" ≠ weekend.tag := by decide
  have hholiday : "HOLIDAY" ≠ weekend.tag := by decide
  obtain ⟨hsame, -, -⟩ := hlocal standardEngine weekend _ (not_uses_saleFor halways)
  obtain ⟨-, hfault, -⟩ := hlocal standardEngine weekend _ (not_uses_saleFor hholiday)
  obtain ⟨fault', hparse, hrelisted⟩ := hfault _ herror
  exact ⟨hlatest, rfl, ⟨_, hok, (hsame _ hok).1⟩, _, fault', herror, hparse, hrelisted⟩

end Rollout
