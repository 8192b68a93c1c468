import Rollout.Yaml.Node
import Rollout.Yaml.Plain

/-! Reading YAML texts as documents. References are replaced by what they refer to, so often at
most as a hundred times the weight of the whole, and lists and mappings nest at most 128 deep.
Keys are scalars and stand for their own text, whatever their kind. -/
namespace Rollout
set_option autoImplicit false

namespace Yaml

/-- The node itself or the one referred to, with what is left of the references allowed. -/
def Node.follow (root : Node) (n : Node) (left : Nat) : Option (Node × Nat) :=
  match n with
  | .reference i =>
    match left with
    | 0 => none
    | left + 1 => (root.target? i).map fun n => (n, left)
  | n => some (n, left)

def Node.text? : Node → Option (List Char)
  | .scalar _ _ text _ => some text
  | _ => none

/-- Reads one item after the other with what is left of the references. -/
def readItems (item : Node → Nat → Option (Document × Nat)) :
    List Node → Nat → Option (List Document × Nat)
  | [], left => some ([], left)
  | n :: rest, left =>
    match item n left with
    | none => none
    | some (d, left) => (readItems item rest left).map fun r => (d :: r.1, r.2)

/-- Reads one pair after the other. A key that comes again changes the value of its first
occurrence. -/
def readPairs (root : Node) (item : Node → Nat → Option (Document × Nat)) :
    List (Node × Node) → Nat → Entries Document → Option (Entries Document × Nat)
  | [], left, es => some (es, left)
  | (k, v) :: rest, left, es =>
    match root.follow k left with
    | none => none
    | some (k, left) =>
      match k.text?, item v left with
      | some key, some (d, left) => readPairs root item rest left (es.put (String.ofList key) d)
      | _, _ => none

/-- A node whose parts are read by `inside`; without it collections are refused. -/
def readWith (root : Node) (inside : Option (Node → Nat → Option (Document × Nat))) (n : Node)
    (left : Nat) : Option (Document × Nat) :=
  match root.follow n left with
  | some (.scalar _ tag text isPlain, left) =>
    (scalarDocument? tag text isPlain).map fun d => (d, left)
  | some (.list _ tag items, left) =>
    match inside with
    | some item =>
      if tag.any Tag.isLocal then none
      else (readItems item items left).map fun r => (.list r.1, r.2)
    | none => none
  | some (.mapping _ tag pairs, left) =>
    match inside with
    | some item =>
      if tag.any Tag.isLocal then none
      else (readPairs root item pairs left []).map fun r => (.object r.1, r.2)
    | none => none
  | _ => none

/-- A node inside which collections may nest `depth` deep. -/
def readNode (root : Node) : Nat → Node → Nat → Option (Document × Nat)
  | 0 => readWith root none
  | depth + 1 => readWith root (some (readNode root depth))

def maxDepth : Nat := 128

/-- The document of a YAML text; a text without one is null. -/
def read? (s : String) : Option Document :=
  match Node.ofText? s with
  | none => none
  | some none => some .null
  | some (some root) => (readNode root maxDepth root (root.weight * 100)).map Prod.fst

end Yaml

end Rollout
