import Rollout.Context
import Rollout.Yaml.Reader

/-! Contexts of YAML texts. A mapping holds the fields by name, each at most once, and a text
without a document is the empty context. Any scalar will do for a text, whatever it stands for
elsewhere; a plain null is absent. -/
namespace Rollout
set_option autoImplicit false

namespace Context

/-- The node itself or the one that it refers to. -/
def resolved (root n : Yaml.Node) : Option Yaml.Node := (root.follow n 1).map Prod.fst

def isBlankNode : Yaml.Node → Bool
  | .scalar _ _ text isPlain => text = [] && isPlain
  | _ => false

/-- A plain scalar that stands for null. An empty one does only without a tag, and one that spells
null does unless a tag asks for another form. -/
def isNullNode : Yaml.Node → Bool
  | .scalar _ tag text true =>
    Yaml.isNull text && (tag = none || tag = some (Yaml.Tag.core "null")) ||
      text = [] && tag = none
  | _ => false

/-- A plain scalar that has to stand for null and does not. -/
def refusesNull : Yaml.Node → Bool
  | .scalar _ tag text true => tag = some (Yaml.Tag.core "null") && !Yaml.isNull text
  | _ => false

def nodeText (root n : Yaml.Node) : Option String := do
  let n ← resolved root n
  return String.ofList (← n.text?)

/-- A list of texts; where nothing is written it is empty. -/
def nodeTexts (root n : Yaml.Node) : Option (List String) :=
  match resolved root n with
  | some (.list _ _ items) => items.mapM (nodeText root)
  | some n => if isBlankNode n then some [] else none
  | none => none

def nodeOption {α : Type} (root : Yaml.Node) (read : Yaml.Node → Option α) (n : Yaml.Node) :
    Option (Option α) := do
  let n ← resolved root n
  if isNullNode n then return none
  else if refusesNull n then none
  else return some (← read n)

/-- A context and the names of the fields that have been set. -/
structure Draft where
  context : Context
  taken : List String

/-- Sets a field that has not been set before; other names are ignored. -/
def Draft.set (root : Yaml.Node) (draft : Draft) (name : String) (n : Yaml.Node) :
    Option Draft :=
  if draft.taken.contains name then none
  else if name = "username" then
    (nodeOption root (nodeText root) n).map fun v =>
      ⟨{ draft.context with username := v }, name :: draft.taken⟩
  else if name = "groups" then
    (nodeOption root (nodeTexts root) n).map fun v =>
      ⟨{ draft.context with groups := v }, name :: draft.taken⟩
  else if name = "search" then
    (nodeOption root (nodeText root) n).map fun v =>
      ⟨{ draft.context with search := v }, name :: draft.taken⟩
  else some draft

def Draft.blank : Draft := ⟨empty, []⟩

def Draft.setPairs (root : Yaml.Node) : Draft → List (Yaml.Node × Yaml.Node) → Option Draft
  | draft, [] => some draft
  | draft, (k, v) :: rest => do
    let name ← nodeText root k
    setPairs root (← draft.set root name v) rest

def ofNode (root : Yaml.Node) : Option Context :=
  match root with
  | .mapping _ _ pairs => (Draft.blank.setPairs root pairs).map Draft.context
  | n => if isBlankNode n then some empty else none

def ofYaml? (s : String) : Option Context :=
  match Yaml.Node.ofText? s with
  | none => none
  | some none => some empty
  | some (some root) => ofNode root

end Context

end Rollout
