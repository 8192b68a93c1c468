import Rollout.Proofs.Yaml.Tokens

/-! # The nodes of a JSON tree

From the tokens of a JSON tree come its nodes: a scalar for each scalar and each name, a list and a
mapping in brackets for each list and object, without anchors and tags. -/
namespace Rollout
set_option autoImplicit false

namespace Json

/-! ## Trees -/

def Scalar.node : Scalar → Yaml.Node
  | .text ps => .scalar none none (ps.map Piece.meant) false
  | x => .scalar none none x.chars true

def Key.node (k : Key) : Yaml.Node := .scalar none none (k.pieces.map Piece.meant) false

mutual

def Written.node : Written → Yaml.Node
  | .scalar x => x.node
  | .emptyList _ => .list none none []
  | .list _ items => .list none none items.nodes
  | .emptyObject _ => .mapping none none []
  | .object _ members => .mapping none none members.nodes

def Items.nodes : Items → List Yaml.Node
  | .last w _ => [w.node]
  | .cons w _ _ rest => w.node :: rest.nodes

def Members.nodes : Members → List (Yaml.Node × Yaml.Node)
  | .last key _ w _ => [(key.node, w.node)]
  | .cons key _ w _ _ rest => (key.node, w.node) :: rest.nodes

end

end Json

namespace Yaml

namespace Builder

/-! ## Steps of the builder -/

/-- The tokens that the nodes of JSON values start with. -/
def opensNode : List Token → Bool
  | .scalar _ _ :: _ => true
  | .flowSequence :: _ => true
  | .flowMapping :: _ => true
  | _ => false

section

variable {fuel : Nat} {first block indentless : Bool} {rest more : List Token}
  {anchors : Entries Nat} {handles : List (List Char × Tag)} {n : Node}

theorem node_scalar (text : List Char) (isPlain : Bool) :
    node (fuel + 1) block indentless ⟨.scalar text isPlain :: rest, anchors, handles⟩ =
      some (.scalar none none text isPlain, ⟨rest, anchors, handles⟩) := by
  simp [node, properties, register, skip]

theorem node_flowSequence : node (fuel + 1) block indentless ⟨.flowSequence :: rest, anchors, handles⟩ =
    (flowItems fuel true ⟨rest, anchors, handles⟩).map fun r => (.list none none r.1, r.2) := by
  simp [node, properties, register, skip]

theorem node_flowMapping : node (fuel + 1) block indentless ⟨.flowMapping :: rest, anchors, handles⟩ =
    (flowPairs fuel true ⟨rest, anchors, handles⟩).map fun r => (.mapping none none r.1, r.2) := by
  simp [node, properties, register, skip]

theorem flowItems_end : flowItems (fuel + 1) first ⟨.flowSequenceEnd :: rest, anchors, handles⟩ =
    some ([], ⟨rest, anchors, handles⟩) := by
  simp [flowItems, skip]

theorem flowPairs_end : flowPairs (fuel + 1) first ⟨.flowMappingEnd :: rest, anchors, handles⟩ =
    some ([], ⟨rest, anchors, handles⟩) := by
  simp [flowPairs, skip]

/-- The comma before all entries but the first. -/
def comma (first : Bool) : List Token := if first then [] else [.flowEntry]

theorem flowItems_cons (hopens : opensNode rest = true)
    (hnode : node fuel false false ⟨rest, anchors, handles⟩ = some (n, ⟨more, anchors, handles⟩)) :
    flowItems (fuel + 1) first ⟨comma first ++ rest, anchors, handles⟩ =
      (flowItems fuel false ⟨more, anchors, handles⟩).map fun r => (n :: r.1, r.2) := by
  unfold opensNode at hopens
  split at hopens
  · cases first <;> simp [flowItems, comma, skip, hnode]
  · cases first <;> simp [flowItems, comma, skip, hnode]
  · cases first <;> simp [flowItems, comma, skip, hnode]
  · cases hopens

theorem flowPairs_cons (hopens : opensNode rest = true) (text : List Char)
    (hnode : node fuel false false ⟨rest, anchors, handles⟩ = some (n, ⟨more, anchors, handles⟩)) :
    flowPairs (fuel + 3) first
        ⟨comma first ++ .key :: .scalar text false :: .value :: rest, anchors, handles⟩ =
      (flowPairs (fuel + 2) false ⟨more, anchors, handles⟩).map fun r =>
        ((.scalar none none text false, n) :: r.1, r.2) := by
  have hkey : part (fuel + 2) false false false
      ⟨.scalar text false :: .value :: rest, anchors, handles⟩ =
        some (.scalar none none text false, ⟨.value :: rest, anchors, handles⟩) := by
    rw [part, if_neg (by decide), node_scalar]
  have hends : endsFlowPart .flowMappingEnd rest = false := by
    unfold opensNode at hopens
    split at hopens
    · simp [endsFlowPart]
    · simp [endsFlowPart]
    · simp [endsFlowPart]
    · cases hopens
  have hvalue : flowValue (fuel + 2) .flowMappingEnd ⟨.value :: rest, anchors, handles⟩ =
      some (n, ⟨more, anchors, handles⟩) := by
    simp [flowValue, part, skip, hends, hnode]
  cases first <;> simp [flowPairs, comma, skip, endsFlowPart, hkey, hvalue]

end

end Builder

end Yaml

namespace Json

/-! ## Building -/

open Yaml Yaml.Builder

theorem Written.opensNode_tokens (w : Written) (rest : List Token) :
    opensNode (w.tokens ++ rest) = true := by
  cases w with
  | scalar x => cases x <;> rfl
  | _ => rfl

theorem Written.length_tokens_pos (w : Written) : 0 < w.tokens.length := by
  cases w <;> simp [Written.tokens]

section

variable {anchors : Entries Nat} {handles : List (List Char × Tag)}

mutual

/-- Twice as much fuel as there are tokens is enough. -/
theorem Written.builds : (w : Written) → ∀ {fuel : Nat} {block indentless : Bool} (rest : List Token),
    2 * w.tokens.length ≤ fuel →
    Builder.node fuel block indentless ⟨w.tokens ++ rest, anchors, handles⟩ =
      some (w.node, ⟨rest, anchors, handles⟩)
  | .scalar x, fuel, block, indentless, rest, hfuel => by
    obtain ⟨fuel, rfl⟩ : ∃ n, fuel = n + 1 := ⟨fuel - 1, by simp [Written.tokens] at hfuel; omega⟩
    cases x <;> exact node_scalar _ _
  | .emptyList blank, fuel, block, indentless, rest, hfuel => by
    obtain ⟨fuel, rfl⟩ : ∃ n, fuel = n + 2 := ⟨fuel - 2, by simp [Written.tokens] at hfuel; omega⟩
    simp only [Written.tokens, List.cons_append, List.nil_append]
    rw [node_flowSequence, flowItems_end]
    rfl
  | .emptyObject blank, fuel, block, indentless, rest, hfuel => by
    obtain ⟨fuel, rfl⟩ : ∃ n, fuel = n + 2 := ⟨fuel - 2, by simp [Written.tokens] at hfuel; omega⟩
    simp only [Written.tokens, List.cons_append, List.nil_append]
    rw [node_flowMapping, flowPairs_end]
    rfl
  | .list blank items, fuel, block, indentless, rest, hfuel => by
    rw [Written.tokens, List.length_cons] at hfuel
    obtain ⟨fuel, rfl⟩ : ∃ n, fuel = n + 1 := ⟨fuel - 1, by omega⟩
    have hitems := @items.builds fuel true rest (by simp [comma]; omega)
    simp only [comma, if_true, List.nil_append] at hitems
    rw [Written.tokens, List.cons_append, node_flowSequence, hitems]
    rfl
  | .object blank members, fuel, block, indentless, rest, hfuel => by
    rw [Written.tokens, List.length_cons] at hfuel
    obtain ⟨fuel, rfl⟩ : ∃ n, fuel = n + 1 := ⟨fuel - 1, by omega⟩
    have hmembers := @members.builds fuel true rest (by simp [comma]; omega)
    simp only [comma, if_true, List.nil_append] at hmembers
    rw [Written.tokens, List.cons_append, node_flowMapping, hmembers]
    rfl

/-- An item of a list is built and leaves enough fuel for the ones after it. -/
theorem Items.builds : (is : Items) → ∀ {fuel : Nat} {first : Bool} (rest : List Token),
    2 * ((comma first).length + is.tokens.length) ≤ fuel →
    flowItems fuel first ⟨comma first ++ (is.tokens ++ rest), anchors, handles⟩ =
      some (is.nodes, ⟨rest, anchors, handles⟩)
  | .last w after, fuel, first, rest, hfuel => by
    simp only [Items.tokens, List.length_append, List.length_cons, List.length_nil] at hfuel
    obtain ⟨fuel, rfl⟩ : ∃ n, fuel = n + 2 := ⟨fuel - 2, by omega⟩
    have hnode := @w.builds (fuel + 1) false false (.flowSequenceEnd :: rest) (by omega)
    rw [Items.tokens, List.append_assoc, List.singleton_append,
      flowItems_cons (w.opensNode_tokens _) hnode, flowItems_end]
    rfl
  | .cons w after next more, fuel, first, rest, hfuel => by
    have hpos := w.length_tokens_pos
    simp only [Items.tokens, List.length_append, List.length_cons] at hfuel
    obtain ⟨fuel, rfl⟩ : ∃ n, fuel = n + 1 := ⟨fuel - 1, by omega⟩
    have hnode := @w.builds fuel false false (.flowEntry :: (more.tokens ++ rest)) (by omega)
    have hmore := @more.builds fuel false rest (by simp [comma]; omega)
    rw [Items.tokens, List.append_assoc, List.cons_append,
      flowItems_cons (w.opensNode_tokens _) hnode]
    exact congrArg _ hmore

theorem Members.builds : (ms : Members) → ∀ {fuel : Nat} {first : Bool} (rest : List Token),
    2 * ((comma first).length + ms.tokens.length) ≤ fuel →
    flowPairs fuel first ⟨comma first ++ (ms.tokens ++ rest), anchors, handles⟩ =
      some (ms.nodes, ⟨rest, anchors, handles⟩)
  | .last key before w after, fuel, first, rest, hfuel => by
    simp only [Members.tokens, Key.tokens, List.length_append, List.length_cons, List.length_nil] at hfuel
    obtain ⟨fuel, rfl⟩ : ∃ n, fuel = n + 3 := ⟨fuel - 3, by omega⟩
    have hnode := @w.builds fuel false false (.flowMappingEnd :: rest) (by omega)
    simp only [Members.tokens, Key.tokens, List.append_assoc, List.cons_append, List.nil_append]
    rw [flowPairs_cons (w.opensNode_tokens _) _ hnode, flowPairs_end]
    rfl
  | .cons key before w after next more, fuel, first, rest, hfuel => by
    have hpos := w.length_tokens_pos
    simp only [Members.tokens, Key.tokens, List.length_append, List.length_cons, List.length_nil] at hfuel
    obtain ⟨fuel, rfl⟩ : ∃ n, fuel = n + 3 := ⟨fuel - 3, by omega⟩
    have hnode := @w.builds fuel false false (.flowEntry :: (more.tokens ++ rest)) (by omega)
    have hmore := @more.builds (fuel + 2) false rest (by simp [comma]; omega)
    simp only [Members.tokens, Key.tokens, List.append_assoc, List.cons_append, List.nil_append]
    rw [flowPairs_cons (w.opensNode_tokens _) _ hnode]
    exact congrArg _ hmore

end

end

/-- The value is the one document, without directives and markers. -/
theorem Written.root (w : Written) : Builder.root w.tokens = some (w.node, []) := by
  have hdirectives : directives w.tokens false [] = some ([], false, w.tokens) := by
    cases w with
    | scalar x => cases x <;> rfl
    | _ => rfl
  have hstart : ∀ rest, w.tokens ≠ .documentStart :: rest := by
    intro rest heq
    have hopens := w.opensNode_tokens []
    rw [List.append_nil, heq] at hopens
    cases hopens
  have hbuild := @w.builds [] defaultHandles (4 * w.tokens.length + 3) true false [] (by omega)
  rw [List.append_nil] at hbuild
  simp only [Builder.root, hdirectives, Option.bind_eq_bind, Option.bind_some]
  split
  · cases ‹(false && !false) = true›
  · simp [part, hbuild]

theorem Page.node {p : Page} (hp : p.Portable) :
    Node.ofText? p.text = if p.hasPair then none else some (some p.value.node) := by
  have hne : p.value.tokens ≠ [] := List.ne_nil_of_length_pos p.value.length_tokens_pos
  rw [Node.ofText?, Page.text, String.toList_ofList, Page.lexes hp]
  cases p.hasPair with
  | true => rfl
  | false => simp [hne, p.value.root]

end Json

end Rollout
