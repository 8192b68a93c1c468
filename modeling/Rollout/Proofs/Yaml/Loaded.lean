import Rollout.Load
import Rollout.Proofs.Yaml.Nodes
import Rollout.Proofs.Yaml.Numeral

/-! # Loading JSON as YAML

A portable JSON text is loaded as YAML with the document it has as JSON, or not at all if it escapes a
pair of surrogates. -/
namespace Rollout
set_option autoImplicit false

namespace Json

open Yaml

/-! ## Documents of nodes -/

theorem Scalar.reads {x : Scalar} (hx : x.Portable) (root : Node)
    (inside : Option (Node → Nat → Option (Document × Nat))) (left : Nat) :
    readWith root inside x.node left = some (x.document, left) := by
  cases x with
  | null => rfl
  | boolean b => cases b <;> rfl
  | text ps => rfl
  | number x n h =>
    have hplain := Numeral.plainDocument?_chars hx h
    simp [Scalar.node, Scalar.chars, Scalar.document, readWith, Node.follow, scalarDocument?, hplain]

mutual

theorem Written.reads : (w : Written) → w.Portable → ∀ (root : Node) {depth : Nat} (left : Nat),
    w.depth ≤ depth → readNode root depth w.node left = some (w.document, left)
  | .scalar x, hw, root, depth, left, _ => by
    cases depth <;> exact x.reads hw root _ left
  | .emptyList blank, _, root, 0, left, hdepth => absurd hdepth (Nat.not_succ_le_zero 0)
  | .emptyList blank, _, root, depth + 1, left, _ => rfl
  | .emptyObject blank, _, root, 0, left, hdepth => absurd hdepth (Nat.not_succ_le_zero 0)
  | .emptyObject blank, _, root, depth + 1, left, _ => rfl
  | .list blank items, hw, root, 0, left, hdepth => absurd hdepth (Nat.not_succ_le_zero _)
  | .list blank items, hw, root, depth + 1, left, hdepth => by
    have hitems := items.reads hw root left (Nat.le_of_succ_le_succ hdepth)
    simp [Written.node, Written.document, readNode, readWith, Node.follow, hitems]
  | .object blank members, hw, root, 0, left, hdepth => absurd hdepth (Nat.not_succ_le_zero _)
  | .object blank members, hw, root, depth + 1, left, hdepth => by
    have hmembers := members.reads hw root left [] (Nat.le_of_succ_le_succ hdepth)
    simp [Written.node, Written.document, readNode, readWith, Node.follow, hmembers]

theorem Items.reads : (is : Items) → is.Portable → ∀ (root : Node) {depth : Nat} (left : Nat),
    is.depth ≤ depth → readItems (readNode root depth) is.nodes left = some (is.documents, left)
  | .last w after, hw, root, depth, left, hdepth => by
    have hread := w.reads hw root left hdepth
    simp [Items.nodes, Items.documents, readItems, hread]
  | .cons w after next more, hw, root, depth, left, hdepth => by
    have hread := w.reads hw.1 root left (Nat.le_trans (Nat.le_max_left _ _) hdepth)
    have hmore := more.reads hw.2 root left (Nat.le_trans (Nat.le_max_right _ _) hdepth)
    simp [Items.nodes, Items.documents, readItems, hread, hmore]

/-- The pairs are put one after the other, as JSON puts the members. -/
theorem Members.reads : (ms : Members) → ms.Portable → ∀ (root : Node) {depth : Nat} (left : Nat)
    (es : Entries Document), ms.depth ≤ depth →
    readPairs root (readNode root depth) ms.nodes left es = some (ms.put es, left)
  | .last key before w after, hw, root, depth, left, es, hdepth => by
    have hread := w.reads hw.2 root left hdepth
    simp [Members.nodes, Members.put, Key.node, Key.name, readPairs, Node.follow, Node.text?, hread]
  | .cons key before w after next more, hw, root, depth, left, es, hdepth => by
    have hread := w.reads hw.2.1 root left (Nat.le_trans (Nat.le_max_left _ _) hdepth)
    have hmore := fun es => more.reads hw.2.2 root left es (Nat.le_trans (Nat.le_max_right _ _) hdepth)
    simp [Members.nodes, Members.put, Key.node, Key.name, readPairs, Node.follow, Node.text?, hread,
      hmore]

end

theorem Page.reads {p : Page} (hp : p.Portable) :
    Yaml.read? p.text = if p.hasPair then none else some p.document := by
  have hdepth : p.value.depth ≤ Yaml.maxDepth := Nat.le_trans p.depth_le (by decide)
  have hread := p.value.reads hp.value p.value.node (p.value.node.weight * 100) hdepth
  rw [Yaml.read?, Page.node hp]
  cases p.hasPair with
  | true => rfl
  | false =>
    simp only [Bool.false_eq_true, if_false, hread, Option.map_some]
    rfl

end Json

namespace Load

theorem json_eq_ok_iff {s : String} {d : Document} :
    json s = .ok d ↔ ∃ p : Json.Page, p.text = s ∧ p.document = d := by
  rw [← Json.read_eq_ok_iff, json]
  cases Json.read s <;> simp

/-- What loads as JSON is written as a tree of it. If the tree is portable, the text loads as YAML
with the same document, unless a pair of surrogates is escaped in it, for which YAML refuses it. -/
theorem yaml_of_json {s : String} {d : Document} (h : json s = .ok d) :
    (∃ p : Json.Page, p.text = s ∧ p.document = d) ∧ ∀ p : Json.Page, p.text = s → p.Portable →
      yaml s = if p.hasPair then .error .badYaml else .ok d := by
  refine ⟨json_eq_ok_iff.1 h, ?_⟩
  rintro p rfl hp
  have hdocument : p.document = d :=
    Except.ok.inj ((json_eq_ok_iff.2 ⟨p, rfl, rfl⟩).symm.trans h)
  rw [yaml, Json.Page.reads hp, hdocument]
  cases p.hasPair <;> rfl

end Load

/-! ## A text that loads and one that does not -/

namespace Json

def Blank.none : Blank := ⟨[], by simp⟩

def Blank.space : Blank := ⟨[' '], List.all_eq_true.1 rfl⟩

def one : Numeral := ⟨false, ⟨['1'], by simp, List.all_eq_true.1 rfl⟩, by simp, .integer⟩

def twoAndHalf : Numeral :=
  ⟨false, ⟨['2'], by simp, List.all_eq_true.1 rfl⟩, by simp,
    .places ⟨['5'], by simp, List.all_eq_true.1 rfl⟩⟩

theorem one_inRange : -9223372036854775808 ≤ (1 : Int) ∧ (1 : Int) < 18446744073709551616 := by
  decide

theorem number?_one : one.number? = some (.integer 1 one_inRange) := by decide +kernel

theorem number?_twoAndHalf : twoAndHalf.number? =
    some (.real ⟨false, 5629499534213120, 1023, by decide, by decide, by decide⟩) := by
  decide +kernel

theorem one_portable : one.Portable :=
  Numeral.portable_of_short (by decide) (by decide) (by rintro _ ⟨⟩) (by simp [one])

theorem twoAndHalf_portable : twoAndHalf.Portable :=
  Numeral.portable_of_short (by decide) (by decide) (by rintro _ ⟨⟩) (by simp [twoAndHalf])

/-- An object with an escape, numbers and a line break before its end. -/
def levels : Page where
  lead := .none
  value := .object .none (.last ⟨[.plain 'a' (by decide), .escape 'n' '\n' rfl], .none⟩ .space
    (.list .none (.cons (.scalar (.number one _ number?_one)) .none .space
      (.last (.scalar (.number twoAndHalf _ number?_twoAndHalf)) .none)))
    ⟨['\n'], List.all_eq_true.1 rfl⟩)
  trail := .none
  depth_le := by decide

theorem levels_portable : levels.Portable where
  readable := List.all_eq_true.1 rfl
  lead := by decide
  trail := .inr (by decide)
  value := by
    refine ⟨⟨?_, by rintro _ ⟨⟩, by decide⟩, one_portable, twoAndHalf_portable⟩
    intro p hp
    rcases List.mem_cons.1 hp with rfl | hp
    · exact (by decide : Yaml.isBreak 'a' = false)
    · rw [List.mem_singleton.1 hp]
      trivial

/-- An object with a character that is escaped as a pair of surrogates. -/
def face : Page where
  lead := .none
  value := .object .none (.last ⟨[.plain 'a' (by decide)], .none⟩ .none
    (.scalar (.text [.pair ⟨'d', '8', '3', 'd', 0xd83d, rfl⟩ ⟨'d', 'e', '0', '0', 0xde00, rfl⟩
      (by decide)])) .none)
  trail := .none
  depth_le := by decide

theorem face_portable : face.Portable where
  readable := List.all_eq_true.1 rfl
  lead := by decide
  trail := .inr (by decide)
  value := by
    refine ⟨⟨?_, by rintro _ ⟨⟩, by decide⟩, ?_⟩
    · intro p hp
      rw [List.mem_singleton.1 hp]
      exact (by decide : Yaml.isBreak 'a' = false)
    · intro p hp
      rw [List.mem_singleton.1 hp]
      trivial

end Json

namespace Load

theorem yaml_of_json_levels :
    json "\x7b\"a\\n\": [1, 2.5]\n\x7d" = .ok Json.levels.document ∧ Json.levels.Portable ∧
      yaml "\x7b\"a\\n\": [1, 2.5]\n\x7d" = .ok Json.levels.document := by
  have htext : Json.levels.text = "\x7b\"a\\n\": [1, 2.5]\n\x7d" := by decide
  have hjson := json_eq_ok_iff.2 ⟨Json.levels, htext, rfl⟩
  exact ⟨hjson, Json.levels_portable, (yaml_of_json hjson).2 Json.levels htext Json.levels_portable⟩

theorem surrogates_not_yaml :
    json "\x7b\"a\":\"\\ud83d\\ude00\"\x7d" = .ok (.object [("a", .text "😀")]) ∧
      yaml "\x7b\"a\":\"\\ud83d\\ude00\"\x7d" = .error .badYaml := by
  have htext : Json.face.text = "\x7b\"a\":\"\\ud83d\\ude00\"\x7d" := by decide
  refine ⟨json_eq_ok_iff.2 ⟨Json.face, htext, rfl⟩, ?_⟩
  rw [yaml, ← htext, Json.Page.reads Json.face_portable]
  rfl

end Load

end Rollout
