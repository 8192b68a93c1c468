import Rollout.Condition.Registry
import Rollout.Operator

/-! Variants: the entries of a configuration, each with the mods that it contributes while its
conditions hold. An entry is checked in a fixed order, its id, its list of conditions, its mods,
each condition and the operator, and the first fault is the one reported. -/
namespace Rollout
set_option autoImplicit false

/-! ## Mods -/

/-- Replacements of services by name, each key once, in the order of their first merge. -/
structure Mods where
  entries : Entries String
  distinct : entries.Distinct

namespace Mods

def empty : Mods := ⟨[], Entries.distinct_nil⟩

/-- The mods of entries put one after the other. -/
def ofEntries (es : Entries String) : Mods :=
  ⟨Entries.extend [] es, Entries.Distinct.extend Entries.distinct_nil es⟩

/-- Mods extended by others, whose values win. -/
def merge (m n : Mods) : Mods := ⟨m.entries.extend n.entries, m.distinct.extend n.entries⟩

def keys (m : Mods) : List String := m.entries.keys

def find? (m : Mods) (key : String) : Option String := m.entries.find? key

end Mods

/-! ## Entries of a configuration -/

/-- A checked entry; `forcible` says that the URL may force it on. -/
structure Variant (G : Type) where
  id : String
  conditions : List (Condition G)
  mods : Mods
  forcible : Bool
  operator : Operator

namespace Variant

variable {G : Type}

def parseMod (id : String) (e : String × Document) : Except ConfigError (String × String) :=
  match e.2 with
  | .text s => .ok (e.1, s)
  | _ => .error (.modNotText id e.1)

/-- The mods of an entry, at least one. -/
def parseMods (id : String) (mods : Option Document) : Except ConfigError Mods :=
  match mods.bind Document.members? with
  | some (e :: rest) => do
    let es ← (e :: rest).mapM (parseMod id)
    return Mods.ofEntries es
  | _ => .error (.missingMods id)

/-- The specifications of an entry's conditions, at least one. -/
def specs (id : String) (conditions : Option Document) : Except ConfigError (List Document) :=
  match conditions.bind Document.items? with
  | some (d :: rest) => .ok (d :: rest)
  | _ => .error (.missingConditions id)

def parseId (entry : Document) : Except ConfigError String :=
  match (entry.member? "id").bind Document.text? with
  | some id => .ok id
  | none => .error .missingId

/-- Only the literal truth value opts in. -/
def isForcible (entry : Document) : Bool :=
  match entry.member? "allowUrlOverrides" with
  | some (.boolean b) => b
  | _ => false

def parse (r : Registry G) (entry : Document) : Except ConfigError (Variant G) := do
  let id ← parseId entry
  let specs ← specs id (entry.member? "conditions")
  let mods ← parseMods id (entry.member? "mods")
  let conditions ← specs.mapM r.instantiate
  let operator ← Operator.parse (entry.member? "conditionalOperator")
  return ⟨id, conditions, mods, isForcible entry, operator⟩

def parseAll (r : Registry G) (config : Document) : Except ConfigError (List (Variant G)) :=
  match config.items? with
  | some entries => entries.mapM (parse r)
  | none => .error .notAList

end Variant

end Rollout
