import Rollout.Schema.Check

/-! The schema of configurations: a list of entries, each with an id, conditions and mods, and
perhaps an operator. Of a condition it asks for a tag and leaves the other fields to its kind. The
report is complete, where building the entries stops at the first fault. -/
namespace Rollout
set_option autoImplicit false

namespace Schema

/-! ## Operators -/

/-- A text spells a word, each letter small or large. -/
def spells (word s : String) : Bool :=
  s.toList.isEqv word.toList fun c letter => c = letter || c = letter.toUpper

def isOperatorName (s : String) : Bool := spells "and" s || spells "or" s

/-- The pattern of these names as it is reported. -/
def operatorPattern : String := "^([Aa][Nn][Dd]|[Oo][Rr])$"

/-! ## The parts of a configuration -/

/-- A condition is an object with a tag that is not empty. -/
def condition : Check :=
  .all [.form [.object], .required "type",
    .member "type" (.all [.form [.text], .someCharacter])]

/-- Mods name their replacements, at least one. -/
def mods : Check :=
  .all [.form [.object], .someMember, .members (.form [.text])]

def conditions : Check := .all [.form [.list], .someItem, .items condition]

def operator : Check :=
  .all [.form [.null, .text], .pattern operatorPattern isOperatorName]

def entry : Check :=
  .all [.form [.object], .required "id", .required "conditions", .required "mods",
    .member "id" (.form [.text]), .member "conditions" conditions, .member "mods" mods,
    .member "conditionalOperator" operator]

def config : Check := .all [.form [.list], .items entry]

end Schema

def violations (config : Document) : List Violation := Schema.config config

end Rollout
