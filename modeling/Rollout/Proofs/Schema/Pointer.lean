import Rollout.Proofs.Text.Pieces
import Rollout.Schema.Check

/-! # Pointers read back

A pointer names a part of a document by tokens, each after a slash, in which `~0` stands for a tilde
and `~1` for a slash. The pointer of a place is read as the names of its steps, whatever characters
they hold, and so it leads to the part that the steps lead to. -/
namespace Rollout
set_option autoImplicit false

/-! ## Places in a document -/

namespace Step

/-- What a token says when nothing in it is escaped. -/
def name : Step → String
  | index i => toString i
  | member name => name

end Step

namespace Document

def step? : Document → Step → Option Document
  | list ds, .index i => ds[i]?
  | d, .member name => d.member? name
  | _, _ => none

theorem step?_index {ds : List Document} {i : Nat} {x : Document} (h : ds[i]? = some x) :
    (list ds).step? (.index i) = some x := h

theorem step?_member {d x : Document} {name : String} (h : d.member? name = some x) :
    d.step? (.member name) = some x := by
  cases d <;> exact h

/-- The part at a place. -/
def at? (d : Document) (place : List Step) : Option Document := place.foldlM step? d

theorem at?_cons {d x : Document} {s : Step} (h : d.step? s = some x) (place : List Step) :
    d.at? (s :: place) = x.at? place := by
  rw [at?, List.foldlM_cons, h]
  rfl

end Document

/-! ## Reading pointers -/

namespace Pointer

/-- A token with its escapes undone; a tilde stands only before a zero or a one. -/
def unescape? : List Char → Option (List Char)
  | [] => some []
  | '~' :: '0' :: rest => (unescape? rest).map ('~' :: ·)
  | '~' :: '1' :: rest => (unescape? rest).map ('/' :: ·)
  | '~' :: _ => none
  | c :: rest => (unescape? rest).map (c :: ·)

/-- The tokens of a pointer, which is empty or begins with a slash. -/
def tokens? : List Char → Option (List String)
  | [] => some []
  | '/' :: rest => (Text.pieces '/' rest).mapM fun piece => (unescape? piece).map String.ofList
  | _ => none

/-- A position in digits, without zeros in front. -/
def position? (token : String) : Option Nat :=
  let i := Nat.ofDigitChars 10 token.toList 0
  if toString i = token then some i else none

/-- The part of a document that a token refers to. -/
def part? : Document → String → Option Document
  | .object members, token => Entries.find? members token
  | .list ds, token => (position? token).bind fun i => ds[i]?
  | _, _ => none

def resolve? (d : Document) (path : String) : Option Document :=
  (tokens? path.toList).bind fun tokens => tokens.foldlM part? d

/-! ## Escapes -/

theorem unescape?_plain {c : Char} (h : c ≠ '~') (rest : List Char) :
    unescape? (c :: rest) = (unescape? rest).map (c :: ·) := by
  rw [unescape?]
  all_goals simp [h]

theorem unescape?_escape (cs : List Char) :
    unescape? (cs.flatMap Step.escapePointer) = some cs := by
  induction cs with
  | nil => rfl
  | cons c rest ih =>
    rw [List.flatMap_cons, Step.escapePointer]
    by_cases htilde : c = '~'
    · subst htilde
      simp [unescape?, ih]
    · by_cases hslash : c = '/'
      · subst hslash
        simp [unescape?, ih]
      · simp [htilde, hslash, unescape?_plain htilde, ih]

theorem slash_not_mem_escape (cs : List Char) : '/' ∉ cs.flatMap Step.escapePointer := by
  intro h
  obtain ⟨c, -, hc⟩ := List.mem_flatMap.1 h
  rw [Step.escapePointer] at hc
  split at hc
  · simp at hc
  · split at hc
    · simp at hc
    · rename_i hslash
      exact hslash (List.mem_singleton.1 hc).symm

/-- No character of a position is escaped. -/
theorem escape_digits (i : Nat) :
    (toString i).toList.flatMap Step.escapePointer = (toString i).toList := by
  have hdigits : ∀ c ∈ (toString i).toList, Step.escapePointer c = [c] := by
    intro c hc
    have hdigit : c.isDigit = true := by
      rw [Nat.toString_eq_repr, Nat.repr_eq_ofList_toDigits, String.toList_ofList] at hc
      exact Nat.isDigit_of_mem_toDigits (by decide) (by decide) hc
    have htilde : c ≠ '~' := fun h => absurd (h ▸ hdigit) (by decide)
    have hslash : c ≠ '/' := fun h => absurd (h ▸ hdigit) (by decide)
    rw [Step.escapePointer, if_neg htilde, if_neg hslash]
  rw [List.flatMap_def, List.map_congr_left hdigits, ← List.flatMap_def, List.flatMap_singleton']

theorem token_eq (s : Step) : s.token = String.ofList (s.name.toList.flatMap Step.escapePointer) := by
  cases s with
  | index i => rw [Step.name, escape_digits, String.ofList_toList, Step.token]
  | member name => rfl

/-! ## Pointers of places -/

theorem toList_pointer_cons (s : Step) (place : List Step) :
    (pointer (s :: place)).toList = '/' :: (s.token.toList ++ (pointer place).toList) := by
  simp [pointer]

/-- The slashes of a pointer stand in front of the tokens and between them. -/
theorem toList_pointer (s : Step) (place : List Step) : (pointer (s :: place)).toList =
    '/' :: List.intercalate ['/'] ((s :: place).map fun s => s.token.toList) := by
  induction place generalizing s with
  | nil => simp [pointer]
  | cons next place ih =>
    rw [toList_pointer_cons, ih]
    simp [List.intercalate_cons_cons]

theorem tokens?_pointer (place : List Step) :
    tokens? (pointer place).toList = some (place.map Step.name) := by
  cases place with
  | nil => rfl
  | cons s place =>
    have hslashes : ∀ piece ∈ (s :: place).map fun s => s.token.toList, '/' ∉ piece := by
      intro piece hpiece
      obtain ⟨t, -, rfl⟩ := List.mem_map.1 hpiece
      rw [token_eq, String.toList_ofList]
      exact slash_not_mem_escape t.name.toList
    have hread : (fun s : Step => (unescape? s.token.toList).map String.ofList) =
        fun s => pure s.name := by
      funext t
      rw [token_eq, String.toList_ofList, unescape?_escape, Option.map_some, String.ofList_toList]
      rfl
    -- The slash in front is taken off, and the others stand between tokens that hold none.
    rw [toList_pointer, tokens?, Text.pieces_intercalate hslashes (by simp), List.mapM_map]
    simp only [Function.comp_def]
    rw [hread, List.mapM_pure]
    rfl

theorem position?_toString (i : Nat) : position? (toString i) = some i := by
  simp [position?]

theorem part?_name {d x : Document} {s : Step} (h : d.step? s = some x) :
    part? d s.name = some x := by
  unfold Document.step? at h
  split at h
  · rw [Step.name, part?, position?_toString]
    exact h
  · cases d with
    | object members => exact h
    | _ => cases h
  · cases h

theorem resolve?_pointer {d x : Document} {place : List Step} (h : d.at? place = some x) :
    resolve? d (pointer place) = some x := by
  rw [resolve?, tokens?_pointer, Option.bind_some]
  induction place generalizing d with
  | nil => exact h
  | cons s place ih =>
    rw [Document.at?, List.foldlM_cons] at h
    obtain ⟨y, hy, hx⟩ := Option.bind_eq_some_iff.1 h
    rw [List.map_cons, List.foldlM_cons, part?_name hy]
    exact ih hx

end Pointer

end Rollout
