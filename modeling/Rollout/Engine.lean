import Rollout.Url.Query
import Rollout.Variant

/-! The engine: it resolves a configuration in a context to the mods of the active variants. The
whole configuration is checked before anything is tested. A variant is active if the URL forces it
on, and then none of its conditions is tested, or if its conditions hold; where two active variants
have a mod in common the later one wins. -/
namespace Rollout
set_option autoImplicit false

/-! ## Resolutions -/

/-- What became of an entry. -/
structure Outcome where
  id : String
  activation : Activation
  deriving DecidableEq, Repr

/-- The mods of the active variants, an outcome for each entry in order, and the ids that the URL
requested. -/
structure Resolution where
  mods : Mods
  outcomes : List Outcome
  requested : List String

def Resolution.activeIds (r : Resolution) : List String :=
  (r.outcomes.filter fun o => o.activation.isActive).map Outcome.id

/-! ## Activation -/

namespace Variant

variable {G : Type} [RandomSource G]

def outcome (v : Variant G) (a : Activation) : Outcome := ⟨v.id, a⟩

def isForced (requested : List String) (v : Variant G) : Bool :=
  v.forcible && requested.contains v.id

/-- Why an entry is active or that it is not. -/
def activation (requested : List String) (ctx : Context) (v : Variant G) : Trial G Activation :=
  if v.isForced requested then Trial.pure .forced
  else fun s =>
    (v.operator.evaluate ctx v.conditions s).map
      (Run.map fun holds => if holds then .conditions else .inactive)

/-- The activations of entries, each in the scope that the one before left. -/
def activations (requested : List String) (ctx : Context) :
    List (Variant G) → Trial G (List Activation)
  | [] => Trial.pure []
  | v :: rest => fun s =>
    match v.activation requested ctx s with
    | none => none
    | some r =>
      let r : Run G Activation :=
        if r.value.isActive then { r with notes := r.notes ++ [.active v.id r.value] } else r
      r.andThen fun a s => (activations requested ctx rest s).map (Run.map fun as => a :: as)

/-- The mods of the active entries, merged in order. -/
def mergedMods (vs : List (Variant G)) (as : List Activation) : Mods :=
  (vs.zip as).foldl (fun m e => if e.2.isActive then m.merge e.1.mods else m) Mods.empty

end Variant

/-! ## Engines -/

/-- An engine: its kinds of conditions, the query string of the current location, used where a
context has none, and the experiment service. -/
structure Engine (G : Type) where
  registry : Registry G
  location : Option String
  service : Option Service

namespace Engine

variable {G : Type}

def withRegistry (r : Registry G) : Engine G := ⟨r, none, none⟩

def standard : Engine G := withRegistry Registry.builtin

/-- A fresh scope with the engine's service. -/
def scope (e : Engine G) (source : G) : Scope G := (Scope.fresh source).withService e.service

def parse (e : Engine G) (config : Document) : Except ConfigError (List (Variant G)) :=
  Variant.parseAll e.registry config

/-- The ids that the URL requests: the context's query string goes before the location's. -/
def requested (e : Engine G) (ctx : Context) : List String :=
  match ctx.query? with
  | some search => Url.requested (some search)
  | none => Url.requested e.location

def resolveParsed [RandomSource G] (e : Engine G) (vs : List (Variant G)) (ctx : Context) :
    Trial G Resolution := fun s =>
  let requested := e.requested ctx
  let first : List Note := if requested = [] then [] else [.requested requested]
  (Variant.activations requested ctx vs (s.inherit e.service)).map fun r =>
    let outcomes := List.zipWith Variant.outcome vs r.value
    let mods := Variant.mergedMods vs r.value
    let active := (r.value.filter Activation.isActive).length
    ⟨⟨mods, outcomes, requested⟩, r.scope,
      first ++ r.notes ++ [.resolved active mods.entries.length]⟩

/-- Resolves a configuration in a scope. A fault leaves the scope as it was. -/
def resolveIn [RandomSource G] (e : Engine G) (config : Document) (ctx : Context) :
    Trial G (Except ConfigError Resolution) := fun s =>
  match e.parse config with
  | .error fault => some ⟨.error fault, s, []⟩
  | .ok vs => (e.resolveParsed vs ctx s).map (Run.map .ok)

def resolve [RandomSource G] (e : Engine G) (source : G) (config : Document) (ctx : Context) :
    Option (Run G (Except ConfigError Resolution)) :=
  e.resolveIn config ctx (e.scope source)

def describe (e : Engine G) : String :=
  "Variants \x7b registry: " ++ e.registry.describe ++
    ", url_provider: " ++ Context.describeBool e.location.isSome ++
    ", experiments: " ++ Context.describeBool e.service.isSome ++ " \x7d"

end Engine

/-! ## Descriptions of scopes -/

def Scope.describe {G : Type} (s : Scope G) : String :=
  "EvaluationScope \x7b random_mod_draw: " ++
    Context.describeOption id (s.bucket.map fun b => toString b.val) ++
    ", experiments: " ++ Context.describeBool s.service.isSome ++ " \x7d"

end Rollout
