import Rollout.Entries
import Rollout.Yaml.Token

/-! Nodes: the tree that the tokens of a document spell. Anchors are numbered as they come. The
number of a new anchor is the count of the names in use, so a name that is anchored again gets a
number that a later anchor may take over; what a number stands for is settled at the end, the last
node with it counting. -/
namespace Rollout
set_option autoImplicit false

namespace Yaml

/-- A node with the number of its anchor and its tag. -/
inductive Node where
  | scalar (anchor : Option Nat) (tag : Option (Tag)) (text : List Char) (isPlain : Bool)
  | list (anchor : Option Nat) (tag : Option (Tag)) (items : List Node)
  | mapping (anchor : Option Nat) (tag : Option (Tag)) (pairs : List (Node × Node))
  | reference (anchor : Nat)

namespace Node

def empty : Node := scalar none none [] true

def anchor? : Node → Option Nat
  | scalar anchor _ _ _ => anchor
  | list anchor _ _ => anchor
  | mapping anchor _ _ => anchor
  | reference _ => none

def selfAnchored (n : Node) : List (Nat × Node) :=
  match n.anchor? with
  | some i => [(i, n)]
  | none => []

mutual

/-- The anchored nodes in the order in which they start. -/
def anchored : Node → List (Nat × Node)
  | scalar anchor tag text isPlain => selfAnchored (scalar anchor tag text isPlain)
  | list anchor tag items => selfAnchored (list anchor tag items) ++ anchoredItems items
  | mapping anchor tag pairs => selfAnchored (mapping anchor tag pairs) ++ anchoredPairs pairs
  | reference _ => []

def anchoredItems : List Node → List (Nat × Node)
  | [] => []
  | n :: rest => n.anchored ++ anchoredItems rest

def anchoredPairs : List (Node × Node) → List (Nat × Node)
  | [] => []
  | (k, v) :: rest => k.anchored ++ v.anchored ++ anchoredPairs rest

end

mutual

/-- The number of scalars, references and ends of collections. -/
def weight : Node → Nat
  | scalar _ _ _ _ => 1
  | list _ _ items => 2 + weightItems items
  | mapping _ _ pairs => 2 + weightPairs pairs
  | reference _ => 1

def weightItems : List Node → Nat
  | [] => 0
  | n :: rest => n.weight + weightItems rest

def weightPairs : List (Node × Node) → Nat
  | [] => 0
  | (k, v) :: rest => k.weight + v.weight + weightPairs rest

end

/-- What a number stands for in a document: the last node anchored with it. -/
def target? (root : Node) (i : Nat) : Option Node :=
  (root.anchored.reverse.find? fun e => e.1 = i).map Prod.snd

end Node

/-! ## From tokens to nodes -/

/-- The tokens to come, the anchors by name and the tag handles of the document. -/
structure Builder where
  tokens : List Token
  anchors : Entries Nat
  handles : List (List Char × Tag)

namespace Builder

def skip (b : Builder) : Builder := { b with tokens := b.tokens.drop 1 }

def register (b : Builder) (name : Option (List Char)) : Builder × Option Nat :=
  match name with
  | none => (b, none)
  | some name =>
    let i := b.anchors.length
    ({ b with anchors := b.anchors.put (String.ofList name) i }, some i)

/-- The tag that a handle and a suffix name. -/
def expand (b : Builder) (handle : List Char) (suffix : Tag) : Option (Tag) :=
  if handle = [] then some suffix
  else (b.handles.find? fun h => h.1 = handle).map fun h => h.2 ++ suffix

/-- Anchor and tag before a node, in either order, each at most once. -/
def properties (b : Builder) : Option (Option (List Char) × Option (Tag) × Builder) :=
  match b.tokens with
  | .anchor name :: .tag handle suffix :: rest =>
    (b.expand handle suffix).map fun tag => (some name, some tag, { b with tokens := rest })
  | .anchor name :: rest => some (some name, none, { b with tokens := rest })
  | .tag handle suffix :: .anchor name :: rest =>
    (b.expand handle suffix).map fun tag => (some name, some tag, { b with tokens := rest })
  | .tag handle suffix :: rest =>
    (b.expand handle suffix).map fun tag => (none, some tag, { b with tokens := rest })
  | _ => some (none, none, b)

/-- Tokens before which an entry of a collection is empty. -/
def endsBlockEntry : List Token → Bool
  | .blockEntry :: _ => true
  | .blockEnd :: _ => true
  | _ => false

def endsIndentlessEntry : List Token → Bool
  | .blockEntry :: _ => true
  | .key :: _ => true
  | .value :: _ => true
  | .blockEnd :: _ => true
  | _ => false

def endsBlockPart : List Token → Bool
  | .key :: _ => true
  | .value :: _ => true
  | .blockEnd :: _ => true
  | _ => false

def endsFlowPart (closing : Token) : List Token → Bool
  | t :: _ => t = .flowEntry || t = closing
  | [] => false

mutual

/-- A node. In block context block collections may come, and `indentless` lets the entries of a
list start right here. -/
def node : Nat → (block indentless : Bool) → Builder → Option (Node × Builder)
  | 0, _, _, _ => none
  | fuel + 1, block, indentless, b =>
    match b.tokens with
    | .reference name :: _ =>
      (b.anchors.find? (String.ofList name)).map fun i => (.reference i, b.skip)
    | _ =>
      match b.properties with
      | none => none
      | some (name, tag, b) =>
        let (b, anchor) := b.register name
        match b.tokens with
        | .blockEntry :: _ =>
          if indentless then
            (indentlessItems fuel b).map fun r => (.list anchor tag r.1, r.2)
          else if anchor.isSome || tag.isSome then some (.scalar anchor tag [] true, b)
          else none
        | .scalar text isPlain :: _ =>
          some (.scalar anchor tag text isPlain, b.skip)
        | .flowSequence :: _ =>
          (flowItems fuel true b.skip).map fun r => (.list anchor tag r.1, r.2)
        | .flowMapping :: _ =>
          (flowPairs fuel true b.skip).map fun r => (.mapping anchor tag r.1, r.2)
        | .blockSequence :: _ =>
          if block then (blockItems fuel b.skip).map fun r => (.list anchor tag r.1, r.2)
          else if anchor.isSome || tag.isSome then some (.scalar anchor tag [] true, b)
          else none
        | .blockMapping :: _ =>
          if block then (blockPairs fuel b.skip).map fun r => (.mapping anchor tag r.1, r.2)
          else if anchor.isSome || tag.isSome then some (.scalar anchor tag [] true, b)
          else none
        | _ =>
          if anchor.isSome || tag.isSome then some (.scalar anchor tag [] true, b) else none

/-- A part of an entry: a node, or the empty one if the entry ends here. -/
def part : Nat → (block indentless ends : Bool) → Builder → Option (Node × Builder)
  | 0, _, _, _, _ => none
  | fuel + 1, block, indentless, ends, b =>
    if ends then some (.empty, b) else node fuel block indentless b

/-- Entries of a block list up to its end. -/
def blockItems : Nat → Builder → Option (List Node × Builder)
  | 0, _ => none
  | fuel + 1, b =>
    match b.tokens with
    | .blockEntry :: _ =>
      match part fuel true false (endsBlockEntry b.skip.tokens) b.skip with
      | none => none
      | some (n, b) => (blockItems fuel b).map fun r => (n :: r.1, r.2)
    | .blockEnd :: _ => some ([], b.skip)
    | _ => none

/-- Entries of a list at the column of the mapping around it. -/
def indentlessItems : Nat → Builder → Option (List Node × Builder)
  | 0, _ => none
  | fuel + 1, b =>
    match b.tokens with
    | .blockEntry :: _ =>
      match part fuel true false (endsIndentlessEntry b.skip.tokens) b.skip with
      | none => none
      | some (n, b) => (indentlessItems fuel b).map fun r => (n :: r.1, r.2)
    | _ => some ([], b)

def blockValue : Nat → Builder → Option (Node × Builder)
  | 0, _ => none
  | fuel + 1, b =>
    match b.tokens with
    | .value :: _ => part fuel true true (endsBlockPart b.skip.tokens) b.skip
    | _ => some (.empty, b)

/-- Pairs of a block mapping up to its end. -/
def blockPairs : Nat → Builder → Option (List (Node × Node) × Builder)
  | 0, _ => none
  | fuel + 1, b =>
    match b.tokens with
    | .key :: _ =>
      match part fuel true true (endsBlockPart b.skip.tokens) b.skip with
      | none => none
      | some (k, b) =>
        match blockValue fuel b with
        | none => none
        | some (v, b) => (blockPairs fuel b).map fun r => ((k, v) :: r.1, r.2)
    | .blockEnd :: _ => some ([], b.skip)
    | _ => none

/-- The value of a pair inside brackets that end with `closing`. -/
def flowValue : Nat → Token → Builder → Option (Node × Builder)
  | 0, _, _ => none
  | fuel + 1, closing, b =>
    match b.tokens with
    | .value :: _ => part fuel false false (endsFlowPart closing b.skip.tokens) b.skip
    | _ => some (.empty, b)

/-- Items of a flow list up to its bracket. An item may be a pair, which is a mapping of its own;
a pair without a key loses the token after its question mark. -/
def flowItems : Nat → (first : Bool) → Builder → Option (List Node × Builder)
  | 0, _, _ => none
  | fuel + 1, first, b =>
    match b.tokens with
    | .flowSequenceEnd :: _ => some ([], b.skip)
    | _ =>
      let separated := b.tokens.head? = some .flowEntry
      if !first && !separated then none
      else
        let b := if first then b else b.skip
        match b.tokens with
        | .flowSequenceEnd :: _ => some ([], b.skip)
        | .key :: _ =>
          let b := b.skip
          let noKey := b.tokens.head? = some .value || endsFlowPart .flowSequenceEnd b.tokens
          match part fuel false false noKey (if noKey then b.skip else b) with
          | none => none
          | some (k, b) =>
            match flowValue fuel .flowSequenceEnd b with
            | none => none
            | some (v, b) =>
              (flowItems fuel false b).map fun r => (.mapping none none [(k, v)] :: r.1, r.2)
        | _ =>
          match node fuel false false b with
          | none => none
          | some (n, b) => (flowItems fuel false b).map fun r => (n :: r.1, r.2)

/-- Pairs of a flow mapping up to its brace. -/
def flowPairs : Nat → (first : Bool) → Builder → Option (List (Node × Node) × Builder)
  | 0, _, _ => none
  | fuel + 1, first, b =>
    match b.tokens with
    | .flowMappingEnd :: _ => some ([], b.skip)
    | _ =>
      let separated := b.tokens.head? = some .flowEntry
      if !first && !separated then none
      else
        let b := if first then b else b.skip
        match b.tokens with
        | .flowMappingEnd :: _ => some ([], b.skip)
        | .key :: _ =>
          let b := b.skip
          let noKey := b.tokens.head? = some .value || endsFlowPart .flowMappingEnd b.tokens
          match part fuel false false noKey b with
          | none => none
          | some (k, b) =>
            match flowValue fuel .flowMappingEnd b with
            | none => none
            | some (v, b) => (flowPairs fuel false b).map fun r => ((k, v) :: r.1, r.2)
        | _ =>
          match node fuel false false b with
          | none => none
          | some (n, b) => (flowPairs fuel false b).map fun r => ((n, .empty) :: r.1, r.2)

end

/-- The handles that need no directive. -/
def defaultHandles : List (List Char × Tag) :=
  [(['!'], Tag.mark), (['!', '!'], Tag.coreLead)]

/-- The directives before a document: at most one version, 1.1 or 1.2, and each handle once. -/
def directives : List Token → (version : Bool) → List (List Char × Tag) →
    Option (List (List Char × Tag) × Bool × List Token)
  | .version major minor :: rest, version, handles =>
    if version || major ≠ 1 || !(minor = 1 || minor = 2) then none
    else directives rest true handles
  | .tagHandle handle lead :: rest, version, handles =>
    if handles.any fun h => h.1 = handle then none
    else directives rest version (handles ++ [(handle, lead)])
  | tokens, version, handles => some (handles, version || handles ≠ [], tokens)

/-- An explicit document starts with a marker, which has to come after directives; a document may
be empty where it ends. -/
def root (tokens : List Token) : Option (Node × List Token) := do
  let (handles, directed, tokens) ← directives tokens false []
  let (started, tokens) := match tokens with
    | .documentStart :: rest => (true, rest)
    | rest => (false, rest)
  if directed && !started then none
  else
    let empty := started && match tokens with
      | [] => true
      | .version _ _ :: _ => true
      | .tagHandle _ _ :: _ => true
      | .documentStart :: _ => true
      | .documentEnd :: _ => true
      | _ => false
    let b : Builder := ⟨tokens, [], handles ++ defaultHandles⟩
    let (n, b) ← part (4 * tokens.length + 4) true false empty b
    return (n, b.tokens)

end Builder

/-- The root of the one document of a text; a text without one has no root. Several documents are
refused. -/
def Node.ofText? (s : String) : Option (Option Node) := do
  let tokens ← Token.ofText? s.toList
  if tokens = [] then return none
  else
    let (n, rest) ← Builder.root tokens
    if rest.all (· = .documentEnd) then return some n else none

end Yaml

end Rollout
