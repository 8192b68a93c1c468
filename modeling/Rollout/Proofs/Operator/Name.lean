import Rollout.Operator
import Rollout.Schema.Config

/-! # Names of operators in either case

The reader of operators puts letters in upper case and compares, and the schema asks of each
character whether it is the small or the large letter. They take the same texts. -/
namespace Rollout
set_option autoImplicit false

/-! ## Letters -/

theorem toNat_toUpper (c : Char) :
    c.toUpper.toNat = if 97 ≤ c.toNat ∧ c.toNat ≤ 122 then c.toNat - 32 else c.toNat := by
  have hlow : 'a'.val ≤ c.val ↔ 97 ≤ c.toNat := UInt32.le_iff_toNat_le
  have hhigh : c.val ≤ 'z'.val ↔ c.toNat ≤ 122 := UInt32.le_iff_toNat_le
  have hshift : ('A'.val - 'a'.val).toNat = 4294967264 := rfl
  by_cases h : 97 ≤ c.toNat ∧ c.toNat ≤ 122
  · have hc : c.val.toNat = c.toNat := rfl
    delta Char.toUpper
    rw [if_pos h, dif_pos ⟨hlow.2 h.1, hhigh.2 h.2⟩]
    show (c.val + ('A'.val - 'a'.val)).toNat = c.toNat - 32
    rw [UInt32.toNat_add, hshift, hc]
    omega
  · delta Char.toUpper
    rw [if_neg h, dif_neg fun hv => h ⟨hlow.1 hv.1, hhigh.1 hv.2⟩]

theorem toUpper_eq_toUpper_iff {c letter : Char} (h : 97 ≤ letter.toNat ∧ letter.toNat ≤ 122) :
    c.toUpper = letter.toUpper ↔ c = letter ∨ c = letter.toUpper := by
  have hletter := toNat_toUpper letter
  have hc := toNat_toUpper c
  rw [if_pos h] at hletter
  rw [← Char.toNat_inj, ← Char.toNat_inj, ← Char.toNat_inj, hletter, hc]
  split <;> omega

theorem isEqv_letters_iff {cs word : List Char}
    (h : ∀ letter ∈ word, 97 ≤ letter.toNat ∧ letter.toNat ≤ 122) :
    cs.isEqv word (fun c letter => c = letter || c = letter.toUpper) = true ↔
      cs.map Char.toUpper = word.map Char.toUpper := by
  induction cs generalizing word with
  | nil => cases word <;> simp
  | cons c cs ih =>
    cases word with
    | nil => simp
    | cons letter word =>
      obtain ⟨hletter, hword⟩ := List.forall_mem_cons.1 h
      rw [List.isEqv_cons_cons, Bool.and_eq_true, ih hword, List.map_cons, List.map_cons,
        List.cons.injEq, toUpper_eq_toUpper_iff hletter]
      simp

theorem spells_iff {word : String}
    (h : ∀ letter ∈ word.toList, 97 ≤ letter.toNat ∧ letter.toNat ≤ 122) (s : String) :
    Schema.spells word s = true ↔ Operator.upper s = Operator.upper word := by
  rw [Schema.spells, isEqv_letters_iff h, Operator.upper, Operator.upper]
  exact ⟨congrArg String.ofList, fun he => String.ofList_injective he⟩

/-! ## Operators -/

namespace Operator

theorem upper_eq_and_iff (s : String) : upper s = "AND" ↔ Schema.spells "and" s = true := by
  have hletters : ∀ letter ∈ "and".toList, 97 ≤ letter.toNat ∧ letter.toNat ≤ 122 := by simp
  have hupper : upper "and" = "AND" := by decide
  rw [spells_iff hletters, hupper]

theorem upper_eq_or_iff (s : String) : upper s = "OR" ↔ Schema.spells "or" s = true := by
  have hletters : ∀ letter ∈ "or".toList, 97 ≤ letter.toNat ∧ letter.toNat ≤ 122 := by simp
  have hupper : upper "or" = "OR" := by decide
  rw [spells_iff hletters, hupper]

theorem isOperatorName_iff (s : String) :
    Schema.isOperatorName s = true ↔ upper s = "AND" ∨ upper s = "OR" := by
  rw [Schema.isOperatorName, Bool.or_eq_true, upper_eq_and_iff, upper_eq_or_iff]

/-- What an entry may have for its operator. -/
def Fits (d : Option Document) : Prop :=
  d = none ∨ d = some .null ∨ ∃ s, d = some (.text s) ∧ Schema.isOperatorName s = true

/-- The operator that an entry names, by a word in either case; it is `any` where it names none. -/
inductive Named : Option Document → Operator → Prop
  | absent : Named none any
  | null : Named (some .null) any
  | all {s : String} (h : Schema.spells "and" s = true) : Named (some (.text s)) all
  | any {s : String} (h : Schema.spells "or" s = true) : Named (some (.text s)) any

theorem parse_eq_ok_iff {d : Option Document} {op : Operator} : parse d = .ok op ↔ Named d op := by
  constructor
  · intro h
    unfold parse at h
    split at h
    · cases h
      exact .absent
    · cases h
      exact .null
    · rename_i s
      split at h
      · rename_i hand
        cases h
        exact .all ((upper_eq_and_iff s).1 hand)
      · split at h
        · rename_i hor
          cases h
          exact .any ((upper_eq_or_iff s).1 hor)
        · cases h
    · cases h
  · intro h
    cases h with
    | absent => rfl
    | null => rfl
    | all hs => simp [parse, (upper_eq_and_iff _).2 hs]
    | any hs => simp [parse, (upper_eq_or_iff _).2 hs]

theorem parse_isOk_iff (d : Option Document) : (∃ op, parse d = .ok op) ↔ Fits d := by
  simp only [parse_eq_ok_iff]
  constructor
  · rintro ⟨op, h⟩
    cases h with
    | absent => exact .inl rfl
    | null => exact .inr (.inl rfl)
    | all hs => exact .inr (.inr ⟨_, rfl, by rw [Schema.isOperatorName, hs, Bool.true_or]⟩)
    | any hs => exact .inr (.inr ⟨_, rfl, by rw [Schema.isOperatorName, hs, Bool.or_true]⟩)
  · rintro (rfl | rfl | ⟨s, rfl, hs⟩)
    · exact ⟨_, .absent⟩
    · exact ⟨_, .null⟩
    · rcases (Bool.or_eq_true _ _).mp hs with hand | hor
      · exact ⟨_, .all hand⟩
      · exact ⟨_, .any hor⟩

end Operator

end Rollout
