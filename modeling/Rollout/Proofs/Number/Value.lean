import Mathlib.Algebra.Order.Field.Basic
import Mathlib.Algebra.Order.Field.Rat
import Mathlib.Tactic.Linarith
import Mathlib.Tactic.NormNum
import Rollout.Condition.Field

/-! # Numbers as the rationals that they are

A binary64 number has a rational value, and comparing two numbers is comparing their values. The
integers below `2 ^ 53` are numbers themselves, and rounding a greater one does not bring it below,
so a percentage that is written as an integer is kept as it is. -/
namespace Rollout
set_option autoImplicit false

namespace Binary64

/-! ## Values -/

def value (x : Binary64) : ℚ := x.units / perOne

theorem perOne_pos : 0 < perOne := twoTo_pos 1074

theorem le_iff_value_le (x y : Binary64) : x ≤ y ↔ x.value ≤ y.value := by
  have hpos : (0 : ℚ) < perOne := Nat.cast_pos.2 perOne_pos
  rw [value, value, div_le_div_iff_of_pos_right hpos, Int.cast_le, le_iff]

theorem lt_iff_value_lt (x y : Binary64) : x < y ↔ x.value < y.value := by
  have hpos : (0 : ℚ) < perOne := Nat.cast_pos.2 perOne_pos
  rw [value, value, div_lt_div_iff_of_pos_right hpos, Int.cast_lt, lt_iff]

theorem units_eq_iff_value_eq {x y : Binary64} : x.units = y.units ↔ x.value = y.value := by
  have hne : (perOne : ℚ) ≠ 0 := Nat.cast_ne_zero.2 perOne_pos.ne'
  rw [value, value, div_left_inj' hne, Int.cast_inj]

theorem magnitude_eq_natAbs (x : Binary64) : x.magnitude = x.units.natAbs := by
  unfold units
  split <;> omega

theorem value_of_units {x : Binary64} {n : Int} (h : x.units = unitsOf n) : x.value = n := by
  have hne : (perOne : ℚ) ≠ 0 := Nat.cast_ne_zero.2 perOne_pos.ne'
  rw [value, h, unitsOf, Int.cast_mul, Int.cast_natCast, mul_div_cancel_right₀ _ hne]

theorem unitsOf_le_units_iff {x : Binary64} {n : Int} :
    unitsOf n ≤ x.units ↔ (n : ℚ) ≤ x.value := by
  have hpos : (0 : ℚ) < perOne := Nat.cast_pos.2 perOne_pos
  rw [value, le_div_iff₀ hpos, unitsOf, ← Int.cast_le (R := ℚ), Int.cast_mul, Int.cast_natCast]

theorem units_le_unitsOf_iff {x : Binary64} {n : Int} :
    x.units ≤ unitsOf n ↔ x.value ≤ (n : ℚ) := by
  have hpos : (0 : ℚ) < perOne := Nat.cast_pos.2 perOne_pos
  rw [value, div_le_iff₀ hpos, unitsOf, ← Int.cast_le (R := ℚ), Int.cast_mul, Int.cast_natCast]

theorem units_nonneg_iff {x : Binary64} : 0 ≤ x.units ↔ 0 ≤ x.value := by
  have h := unitsOf_le_units_iff (x := x) (n := 0)
  rwa [unitsOf, Int.zero_mul, Int.cast_zero] at h

/-! ## Rounding -/

theorem ofParts?_eq_some {negative : Bool} {m s : Nat} {x : Binary64}
    (h : ofParts? negative m s = some x) :
    x.negative = negative ∧ x.magnitude = m * twoTo s := by
  unfold ofParts? at h
  split at h
  · cases h
    exact ⟨rfl, rfl⟩
  · split at h
    · rename_i hm
      cases h
      have hcarry : 4503599627370496 * twoTo 1 = 9007199254740992 := by decide
      refine ⟨rfl, ?_⟩
      show 4503599627370496 * twoTo (s + 1) = m * twoTo s
      rw [Nat.add_comm s 1, twoTo_add, ← Nat.mul_assoc, hcarry, hm.1]
    · cases h

/-- The scale at which a quotient with this many whole units is rounded. -/
def roundingScale (k : Nat) : Nat := k.log2 - 52

theorem nearest?_eq_some {negative : Bool} {num den : Nat} {x : Binary64}
    (h : nearest? negative num den = some x) :
    x.negative = negative ∧
    x.magnitude = roundHalfEven (num * perOne) (den * twoTo (roundingScale (num * perOne / den))) *
      twoTo (roundingScale (num * perOne / den)) :=
  ofParts?_eq_some h

theorem roundHalfEven_of_dvd {n d : Nat} (h : d ∣ n) : roundHalfEven n d = n / d := by
  have hmod : n % d = 0 := Nat.mod_eq_zero_of_dvd h
  unfold roundHalfEven
  rw [hmod]
  split
  · rfl
  · have hd : d = 0 := by omega
    subst hd
    simp

/-! ## Integers -/

theorem twoTo_dvd {a b : Nat} (h : a ≤ b) : twoTo a ∣ twoTo b := Nat.pow_dvd_pow 2 h

theorem le_log2_of_twoTo_le {n k : Nat} (h0 : n ≠ 0) (h : twoTo k ≤ n) : k ≤ n.log2 :=
  (Nat.le_log2 h0).2 h

theorem twoTo_53 : twoTo 53 = 9007199254740992 := by decide

theorem twoTo_mul_perOne (n : Nat) : twoTo n * perOne = twoTo (n + 1074) := (twoTo_add n 1074).symm

theorem ofInt_eq_some (i : Int) (h : i.natAbs < 18446744073709551616) :
    nearest? (i < 0) i.natAbs 1 = some (ofInt i h) := (Option.some_get _).symm

theorem magnitude_ofInt (i : Int) (h : i.natAbs < 18446744073709551616) :
    (ofInt i h).magnitude = roundHalfEven (i.natAbs * perOne)
      (twoTo (roundingScale (i.natAbs * perOne))) * twoTo (roundingScale (i.natAbs * perOne)) := by
  have hx := (nearest?_eq_some (ofInt_eq_some i h)).2
  rwa [Nat.div_one, Nat.one_mul] at hx

theorem units_of_magnitude {i : Int} {h : i.natAbs < 18446744073709551616} {n : Nat}
    (hn : (ofInt i h).magnitude = n) : (ofInt i h).units = if i < 0 then -(n : Int) else n := by
  have hx := (nearest?_eq_some (ofInt_eq_some i h)).1
  rw [units, hx, hn]
  by_cases hi : i < 0 <;> simp [hi]

/-- A quotient of no more than 53 bits at some scale is a number, so it is not rounded. -/
theorem magnitude_of_exact {negative : Bool} {num den m s : Nat} {x : Binary64} (hden : 0 < den)
    (hm : m < 9007199254740992) (hexact : num * perOne = m * twoTo s * den)
    (h : nearest? negative num den = some x) : x.magnitude = m * twoTo s := by
  have hquotient : num * perOne / den = m * twoTo s := by rw [hexact, Nat.mul_div_cancel _ hden]
  -- With no more than 53 bits nothing is cut off below `twoTo s`, so the division leaves no rest.
  have hscale : roundingScale (m * twoTo s) ≤ s := by
    by_cases h0 : m * twoTo s = 0
    · rw [h0]
      exact Nat.zero_le s
    · have hlt : m * twoTo s < twoTo (53 + s) := mul_twoTo_lt (twoTo_53 ▸ hm) (Nat.le_refl _)
      have hlog := log2_lt_of_lt h0 hlt
      unfold roundingScale
      omega
  have hdvd : twoTo (roundingScale (m * twoTo s)) ∣ m * twoTo s :=
    Nat.dvd_trans (twoTo_dvd hscale) (Nat.dvd_mul_left _ m)
  have hround : den * twoTo (roundingScale (m * twoTo s)) ∣ num * perOne := by
    rw [hexact, Nat.mul_comm den]
    exact Nat.mul_dvd_mul_right hdvd den
  rw [(nearest?_eq_some h).2, hquotient, roundHalfEven_of_dvd hround, ← Nat.div_div_eq_div_mul,
    hquotient, Nat.div_mul_cancel hdvd]

theorem units_ofInt_of_magnitude {i : Int} {h : i.natAbs < 18446744073709551616}
    (hmag : (ofInt i h).magnitude = i.natAbs * perOne) : (ofInt i h).units = unitsOf i := by
  rw [units_of_magnitude hmag, unitsOf, Nat.cast_mul]
  split
  · rename_i hneg
    rw [← Int.neg_mul, show -(i.natAbs : Int) = i by omega]
  · rename_i hneg
    rw [show (i.natAbs : Int) = i by omega]

/-- An integer below `2 ^ 53` is a number, so it is not rounded. -/
theorem units_ofInt {i : Int} (h : i.natAbs < 18446744073709551616)
    (hi : i.natAbs < 9007199254740992) : (ofInt i h).units = unitsOf i :=
  units_ofInt_of_magnitude
    (magnitude_of_exact Nat.one_pos hi (Nat.mul_one _).symm (ofInt_eq_some i h))

/-- An integer that is the value of a number is not rounded either, however great it is. -/
theorem value_ofInt_of_value {i : Int} (h : i.natAbs < 18446744073709551616) {x : Binary64}
    (hx : x.value = i) : (ofInt i h).value = i := by
  have hne : (perOne : ℚ) ≠ 0 := Nat.cast_ne_zero.2 perOne_pos.ne'
  have hunits : x.units = i * perOne := by
    rw [value, div_eq_iff hne] at hx
    exact_mod_cast hx
  -- The parts of `x` write the integer with 53 bits, which is all that rounding keeps.
  have hexact : i.natAbs * perOne = x.significand * twoTo x.scale * 1 := by
    rw [Nat.mul_one]
    show _ = x.magnitude
    rw [magnitude_eq_natAbs, hunits, Int.natAbs_mul, Int.natAbs_natCast]
  have hmag := magnitude_of_exact Nat.one_pos x.significand_lt hexact (ofInt_eq_some i h)
  rw [← Nat.mul_one (_ * _), ← hexact] at hmag
  exact value_of_units (units_ofInt_of_magnitude hmag)

/-- A quotient by a power of two is a number if what is divided is one of at most 53 bits. -/
theorem value_ofRatio {n k : Nat} (h : n < 18446744073709551616) (hn : n < 9007199254740992)
    (hk : k ≤ 1074) : (ofRatio n (twoTo k) h).value = n / twoTo k := by
  have hsome : nearest? false n (twoTo k) = some (ofRatio n (twoTo k) h) := (Option.some_get _).symm
  have hsplit : perOne = twoTo (1074 - k) * twoTo k := by
    rw [← twoTo_add, Nat.sub_add_cancel hk]
    rfl
  have hexact : n * perOne = n * twoTo (1074 - k) * twoTo k := by rw [hsplit, Nat.mul_assoc]
  have hmag := magnitude_of_exact (twoTo_pos k) hn hexact hsome
  have hne : (twoTo (1074 - k) : ℚ) ≠ 0 := Nat.cast_ne_zero.2 (twoTo_pos _).ne'
  rw [value, units, (nearest?_eq_some hsome).1, if_neg Bool.false_ne_true, hmag, hsplit,
    Int.cast_natCast, Nat.cast_mul, Nat.cast_mul, mul_comm (n : ℚ), mul_div_mul_left _ _ hne]

/-- An integer of at least `2 ^ 53` stays as great when it is rounded. -/
theorem le_magnitude_ofInt {i : Int} (h : i.natAbs < 18446744073709551616)
    (hi : 9007199254740992 ≤ i.natAbs) : 9007199254740992 * perOne ≤ (ofInt i h).magnitude := by
  have hk : twoTo (53 + 1074) ≤ i.natAbs * perOne := by
    rw [← twoTo_mul_perOne, twoTo_53]
    exact Nat.mul_le_mul_right _ hi
  have h0 : i.natAbs * perOne ≠ 0 := Nat.mul_ne_zero (by omega) perOne_pos.ne'
  have hlog : 53 + 1074 ≤ (i.natAbs * perOne).log2 := le_log2_of_twoTo_le h0 hk
  have hsum : (i.natAbs * perOne).log2 = 52 + roundingScale (i.natAbs * perOne) := by
    unfold roundingScale
    omega
  have hround : twoTo 52 ≤ roundHalfEven (i.natAbs * perOne)
      (twoTo (roundingScale (i.natAbs * perOne))) := by
    refine Nat.le_trans ?_ (roundHalfEven_bounds _ _).1
    rw [Nat.le_div_iff_mul_le (twoTo_pos _), ← twoTo_add, ← hsum]
    exact twoTo_log2_le h0
  rw [magnitude_ofInt]
  calc 9007199254740992 * perOne = twoTo (53 + 1074) := by
        rw [← twoTo_mul_perOne, twoTo_53]
    _ ≤ twoTo (i.natAbs * perOne).log2 := twoTo_le hlog
    _ = twoTo 52 * twoTo (roundingScale (i.natAbs * perOne)) := by rw [hsum, twoTo_add]
    _ ≤ _ := Nat.mul_le_mul_right _ hround

/-- An integer is a number itself, or it is beyond `2 ^ 53` and stays there when it is rounded. -/
theorem value_ofInt_cases (i : Int) (h : i.natAbs < 18446744073709551616) :
    (ofInt i h).value = i ∨
    (9007199254740992 ≤ i ∧ 9007199254740992 ≤ (ofInt i h).value) ∨
    (i ≤ -9007199254740992 ∧ (ofInt i h).value ≤ -9007199254740992) := by
  by_cases hi : i.natAbs < 9007199254740992
  · exact .inl (value_of_units (units_ofInt h hi))
  · have hmag := le_magnitude_ofInt h (by omega)
    have hunits : (ofInt i h).units = _ := units_of_magnitude rfl
    by_cases hneg : i < 0
    · rw [if_pos hneg] at hunits
      have hle : (ofInt i h).units ≤ unitsOf (-9007199254740992) := by
        rw [unitsOf]
        omega
      have hvalue := units_le_unitsOf_iff.1 hle
      push_cast at hvalue
      exact .inr (.inr ⟨by omega, hvalue⟩)
    · rw [if_neg hneg] at hunits
      have hle : unitsOf 9007199254740992 ≤ (ofInt i h).units := by
        rw [unitsOf]
        omega
      have hvalue := unitsOf_le_units_iff.1 hle
      push_cast at hvalue
      exact .inr (.inl ⟨by omega, hvalue⟩)

/-- Rounding an integer does not move it past a number that is less than `2 ^ 53` away from zero. -/
theorem le_value_ofInt_iff (i : Int) (h : i.natAbs < 18446744073709551616) {q : ℚ}
    (hq : |q| < 9007199254740992) : q ≤ (ofInt i h).value ↔ q ≤ i := by
  obtain ⟨hlower, hupper⟩ := abs_lt.1 hq
  obtain heq | ⟨hi, hvalue⟩ | ⟨hi, hvalue⟩ := value_ofInt_cases i h
  · rw [heq]
  · have hi' : (9007199254740992 : ℚ) ≤ i := by exact_mod_cast hi
    exact iff_of_true (hupper.le.trans hvalue) (hupper.le.trans hi')
  · have hi' : (i : ℚ) ≤ -9007199254740992 := by exact_mod_cast hi
    exact iff_of_false (not_le.2 (hvalue.trans_lt hlower)) (not_le.2 (hi'.trans_lt hlower))

theorem value_ofInt_le_iff (i : Int) (h : i.natAbs < 18446744073709551616) {q : ℚ}
    (hq : |q| < 9007199254740992) : (ofInt i h).value ≤ q ↔ (i : ℚ) ≤ q := by
  obtain ⟨hlower, hupper⟩ := abs_lt.1 hq
  obtain heq | ⟨hi, hvalue⟩ | ⟨hi, hvalue⟩ := value_ofInt_cases i h
  · rw [heq]
  · have hi' : (9007199254740992 : ℚ) ≤ i := by exact_mod_cast hi
    exact iff_of_false (not_le.2 (hupper.trans_le hvalue)) (not_le.2 (hupper.trans_le hi'))
  · have hi' : (i : ℚ) ≤ -9007199254740992 := by exact_mod_cast hi
    exact iff_of_true (hvalue.trans hlower.le) (hi'.trans hlower.le)

end Binary64

/-! ## Numbers of a document -/

namespace Number

def value : Number → ℚ
  | integer i _ => i
  | real x => x.value

/-- Two forms of one value are read as numbers of one value, an integer that is rounded in the one
form being the same integer in the other. -/
theorem value_toBinary64_congr {m n : Number} (h : m.value = n.value) :
    m.toBinary64.value = n.toBinary64.value := by
  cases m with
  | integer i fits =>
    cases n with
    | integer j fits' =>
      have hij : i = j := Int.cast_injective (α := ℚ) h
      subst hij
      rfl
    | real y => exact (Binary64.value_ofInt_of_value (natAbs_lt fits) h.symm).trans h
  | real x =>
    cases n with
    | integer j fits' => exact h.trans (Binary64.value_ofInt_of_value (natAbs_lt fits') h).symm
    | real y => exact h

/-- A number that reads as a percentage is read as the number that is written. -/
theorem value_toBinary64 {n : Number} (h0 : 0 ≤ n.toBinary64.units)
    (h1 : n.toBinary64.units ≤ Binary64.unitsOf 100) : n.toBinary64.value = n.value := by
  cases n with
  | real x => rfl
  | integer i fits =>
    have hlower := Binary64.units_nonneg_iff.1 h0
    have hupper := Binary64.units_le_unitsOf_iff.1 h1
    rw [toBinary64] at hlower hupper
    push_cast at hupper
    obtain heq | ⟨-, hvalue⟩ | ⟨-, hvalue⟩ := Binary64.value_ofInt_cases i (natAbs_lt fits)
    · exact heq
    · linarith
    · linarith

theorem le_value_toBinary64_iff (n : Number) {q : ℚ} (hq : |q| < 9007199254740992) :
    q ≤ n.toBinary64.value ↔ q ≤ n.value := by
  cases n with
  | real x => rfl
  | integer i fits => exact Binary64.le_value_ofInt_iff i (natAbs_lt fits) hq

theorem value_toBinary64_le_iff (n : Number) {q : ℚ} (hq : |q| < 9007199254740992) :
    n.toBinary64.value ≤ q ↔ n.value ≤ q := by
  cases n with
  | real x => rfl
  | integer i fits => exact Binary64.value_ofInt_le_iff i (natAbs_lt fits) hq

/-- A number that is written as a percentage is read as one, and not rounded. -/
theorem value_toBinary64_of_mem {n : Number} (h0 : 0 ≤ n.value) (h1 : n.value ≤ 100) :
    n.toBinary64.value = n.value := by
  apply value_toBinary64
  · exact Binary64.units_nonneg_iff.2 ((n.le_value_toBinary64_iff (by norm_num)).2 h0)
  · have hle := (n.value_toBinary64_le_iff (q := 100) (by norm_num [abs_lt])).2 h1
    exact Binary64.units_le_unitsOf_iff.2 (by exact_mod_cast hle)

end Number

end Rollout
