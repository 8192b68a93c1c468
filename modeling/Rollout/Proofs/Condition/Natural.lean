import Rollout.Proofs.Condition.Percent

/-! # Natural numbers of a condition

A field that asks for a natural number takes integers as they are, and binary64 numbers that are
integers as what they are. Only at `2 ^ 64` itself, which 64 bits do not hold, another number is
taken for the one that is written. -/
namespace Rollout
set_option autoImplicit false

namespace Binary64

/-- A number is a natural one if it is not negative and has no digits after the point. -/
theorem value_eq_natCast_iff {x : Binary64} {k : ℕ} :
    x.value = k ↔ 0 ≤ x.units ∧ x.isInteger = true ∧ x.magnitude / perOne = k := by
  have hpos := perOne_pos
  have hne : (perOne : ℚ) ≠ 0 := Nat.cast_ne_zero.2 hpos.ne'
  have hunits : x.value = k ↔ x.units = (k * perOne : ℕ) := by
    rw [value, div_eq_iff hne, ← Int.cast_inj (α := ℚ)]
    push_cast
    rfl
  rw [hunits, isInteger, decide_eq_true_iff, magnitude_eq_natAbs]
  constructor
  · intro h
    rw [h, Int.natAbs_natCast, Nat.mul_mod_left, Nat.mul_div_cancel _ hpos]
    exact ⟨Int.natCast_nonneg _, rfl, rfl⟩
  · rintro ⟨h0, hmod, rfl⟩
    rw [Nat.div_mul_cancel (Nat.dvd_of_mod_eq_zero hmod)]
    omega

end Binary64

namespace Field

theorem ofNat_eq_iff {m : ℕ} (hm : m ≤ maxNatural) {u : UInt64} :
    UInt64.ofNat m = u ↔ u.toNat = m := by
  have htoNat : (UInt64.ofNat m).toNat = m := UInt64.toNat_ofNat_of_lt' (Nat.lt_succ_of_le hm)
  rw [← UInt64.toNat_inj, htoNat, eq_comm]

theorem naturalOf?_integer_eq_some_iff {i : Int}
    {fits : -9223372036854775808 ≤ i ∧ i < 18446744073709551616} {u : UInt64} :
    naturalOf? (.integer i fits) = some u ↔
      ∃ k : ℕ, (Number.integer i fits).value = k ∧ k ≤ 2 ^ 64 ∧ u.toNat = min k maxNatural := by
  have hvalue : ∀ k : ℕ, (Number.integer i fits).value = k ↔ i = k := by
    intro k
    rw [Number.value]
    exact_mod_cast Iff.rfl
  simp only [naturalOf?, hvalue]
  by_cases h0 : 0 ≤ i
  · have hle : i.toNat ≤ maxNatural := by
      unfold maxNatural
      omega
    rw [if_pos h0, Option.some_inj, ofNat_eq_iff hle]
    constructor
    · intro hu
      exact ⟨i.toNat, by omega, by omega, by omega⟩
    · rintro ⟨k, rfl, -, hu⟩
      rw [Int.toNat_natCast] at hle ⊢
      omega
  · rw [if_neg h0]
    constructor
    · rintro ⟨⟩
    · rintro ⟨k, rfl, -⟩
      omega

theorem naturalOf?_real_eq_some_iff {x : Binary64} {u : UInt64} :
    naturalOf? (.real x) = some u ↔
      ∃ k : ℕ, x.value = k ∧ k ≤ 2 ^ 64 ∧ u.toNat = min k maxNatural := by
  have hle : ∀ k : ℕ, x.value = k → (x.units ≤ Binary64.unitsOf 18446744073709551616 ↔
      k ≤ 2 ^ 64) := by
    intro k hk
    rw [Binary64.units_le_unitsOf_iff, hk]
    norm_cast
  simp only [naturalOf?]
  split
  · rename_i h
    obtain ⟨h0, hinteger, hupper⟩ := h
    have hk := Binary64.value_eq_natCast_iff.2 ⟨h0, hinteger, rfl⟩
    rw [Option.some_inj, ofNat_eq_iff (Nat.min_le_right _ _)]
    constructor
    · intro hu
      exact ⟨_, hk, (hle _ hk).1 hupper, hu⟩
    · rintro ⟨k, hk', -, hu⟩
      rwa [(Binary64.value_eq_natCast_iff.1 hk').2.2]
  · rename_i h
    constructor
    · rintro ⟨⟩
    · rintro ⟨k, hk, hbound, -⟩
      obtain ⟨h0, hinteger, -⟩ := Binary64.value_eq_natCast_iff.1 hk
      exact absurd ⟨h0, hinteger, (hle k hk).2 hbound⟩ h

/-- A natural number up to `2 ^ 64` is taken for itself, or for the greatest of 64 bits if it is none
of them. -/
theorem naturalOf?_eq_some_iff {n : Number} {u : UInt64} : naturalOf? n = some u ↔
    ∃ k : ℕ, n.value = k ∧ k ≤ 2 ^ 64 ∧ u.toNat = min k maxNatural := by
  cases n with
  | integer i fits => exact naturalOf?_integer_eq_some_iff
  | real x => exact naturalOf?_real_eq_some_iff

theorem naturalOf?_congr {m n : Number} (h : m.value = n.value) : naturalOf? m = naturalOf? n := by
  refine Option.ext fun u => ?_
  rw [naturalOf?_eq_some_iff, naturalOf?_eq_some_iff, h]

theorem natural_eq_ok_iff {spec : Document} {field tag : String} {u : UInt64} :
    natural spec field tag = .ok u ↔
      ∃ n, spec.member? field = some (.number n) ∧ naturalOf? n = some u := by
  unfold natural
  cases spec.member? field with
  | none => simp
  | some d =>
    cases d with
    | number n => cases hn : naturalOf? n <;> simp [Document.number?, hn]
    | _ => simp [Document.number?]

theorem natural_eq_error_iff {spec : Document} {field tag : String} {fault : ConfigError} :
    natural spec field tag = .error fault ↔ fault = .badField tag field .natural ∧
      ∀ n, spec.member? field = some (.number n) → naturalOf? n = none := by
  unfold natural
  cases spec.member? field with
  | none => simp [eq_comm]
  | some d =>
    cases d with
    | number n => cases hn : naturalOf? n <;> simp [Document.number?, hn, eq_comm]
    | _ => simp [Document.number?, eq_comm]

theorem naturalOf?_eq_none_iff {n : Number} :
    naturalOf? n = none ↔ ∀ k : ℕ, k ≤ 2 ^ 64 → n.value ≠ k := by
  constructor
  · intro h k hk hvalue
    have hle : min k maxNatural ≤ maxNatural := Nat.min_le_right _ _
    have hsome : naturalOf? n = some (UInt64.ofNat (min k maxNatural)) :=
      naturalOf?_eq_some_iff.2 ⟨k, hvalue, hk, (ofNat_eq_iff hle).1 rfl⟩
    rw [h] at hsome
    cases hsome
  · intro h
    rw [Option.eq_none_iff_forall_ne_some]
    intro u hu
    obtain ⟨k, hvalue, hk, -⟩ := naturalOf?_eq_some_iff.1 hu
    exact h k hk hvalue

/-- A field is accepted exactly if it is a number that is a natural one of 64 bits, which is then the
number that is taken, or if it is `2 ^ 64`, for which the one before it is taken. Whatever else the
field is, or if there is none, the condition is refused for it. -/
theorem natural_exact (spec : Document) (field tag : String) :
    (∀ u, natural spec field tag = .ok u ↔ ∃ n, spec.member? field = some (.number n) ∧
      (n.value = u.toNat ∨ n.value = 2 ^ 64 ∧ u.toNat = 2 ^ 64 - 1)) ∧
    ∀ fault, natural spec field tag = .error fault ↔ fault = .badField tag field .natural ∧
      ∀ n, spec.member? field = some (.number n) → ∀ k : ℕ, k ≤ 2 ^ 64 → n.value ≠ k := by
  refine ⟨fun u => ?_, fun fault => ?_⟩
  · rw [natural_eq_ok_iff]
    refine exists_congr fun n => and_congr_right fun _ => ?_
    rw [naturalOf?_eq_some_iff]
    have hu := u.toNat_lt
    constructor
    · rintro ⟨k, hvalue, hk, hmin⟩
      unfold maxNatural at hmin
      -- Below `2 ^ 64` the cap does nothing, so `k` is what is taken.
      by_cases hlast : k = 2 ^ 64
      · subst hlast
        exact .inr ⟨by rw [hvalue]; norm_num, by omega⟩
      · have hsame : k = u.toNat := by omega
        exact .inl (hsame ▸ hvalue)
    · rintro (hvalue | ⟨hvalue, hlast⟩)
      · exact ⟨u.toNat, hvalue, hu.le, by unfold maxNatural; omega⟩
      · exact ⟨2 ^ 64, by rw [hvalue]; norm_num, Nat.le_refl _, by unfold maxNatural; omega⟩
  · rw [natural_eq_error_iff]
    simp only [naturalOf?_eq_none_iff]

def twoTo64 : Number := .real ((Binary64.nearest? false 18446744073709551616 1).getD .zero)

/-- Of `2 ^ 64` another number is made than the one that is written. -/
theorem natural_twoTo64 :
    twoTo64.value = 2 ^ 64 ∧
    natural (.object [("variation", .number twoTo64)]) "variation" "GOOGLE_EXPERIMENTS" =
      .ok 18446744073709551615 ∧
    ((18446744073709551615 : UInt64).toNat : ℚ) ≠ twoTo64.value := by
  have hvalue : twoTo64.value = 2 ^ 64 := by decide +kernel
  refine ⟨hvalue, ?_, ?_⟩
  · rw [natural_eq_ok_iff]
    exact ⟨twoTo64, rfl, by decide +kernel⟩
  · rw [hvalue]
    decide +kernel

end Field

end Rollout
