import Mathlib.Order.Interval.Set.Defs
import Rollout.Condition.Basic
import Rollout.Proofs.Fault.First
import Rollout.Proofs.Number.Value

/-! # Ranges of percents as intervals of rationals

A range is the half-open interval between two rationals. Reading the fields `from` and `to` gives
the interval between the numbers that are written, and the shared bucket lies in a range exactly
when it lies in the interval. -/
namespace Rollout
set_option autoImplicit false

namespace PercentRange

def interval (r : PercentRange) : Set ℚ := Set.Ico r.lower.value r.upper.value

theorem contains_iff (r : PercentRange) (x : Binary64) :
    r.contains x = true ↔ x.value ∈ r.interval := by
  rw [contains, Bool.and_eq_true, decide_eq_true_iff, decide_eq_true_iff,
    Binary64.le_iff_value_le, Binary64.lt_iff_value_lt]
  rfl

theorem lower_value_nonneg (r : PercentRange) : 0 ≤ r.lower.value :=
  Binary64.units_nonneg_iff.1 r.lower_nonneg

theorem lower_value_lt (r : PercentRange) : r.lower.value < r.upper.value :=
  (Binary64.lt_iff_value_lt _ _).1 r.lower_lt

theorem upper_value_le (r : PercentRange) : r.upper.value ≤ 100 := by
  have h := Binary64.units_le_unitsOf_iff.1 r.upper_le
  exact_mod_cast h

end PercentRange

/-- A whole percentage, 100 for whatever is greater. -/
def Number.percent (n : Nat) : Number := .integer (min n 100 : Nat) (by omega)

theorem Number.value_percent {n : Nat} (h : n ≤ 100) : (percent n).value = n := by
  show (((min n 100 : ℕ) : ℤ) : ℚ) = n
  rw [Nat.min_eq_left h, Int.cast_natCast]

/-- The other zero of binary64. -/
def Number.negativeZero : Number := .real { Binary64.zero with negative := true }

theorem Condition.value_sharedNumber (b : Fin 100) : (sharedNumber b).value = b.val := by
  have hb : ((b.val : Int)).natAbs < 9007199254740992 := by
    have h := b.isLt
    omega
  exact (Binary64.value_of_units (Binary64.units_ofInt _ hb)).trans (Int.cast_natCast b.val)

/-- Rounding the bucket of a name brings it neither into a range nor out of one. -/
theorem Condition.contains_bucketNumber (range : PercentRange) (b : Int64) :
    range.contains (bucketNumber b) = true ↔ (b.toInt : ℚ) ∈ range.interval := by
  have hnonneg := range.lower_value_nonneg
  have hlt := range.lower_value_lt
  have hle := range.upper_value_le
  have hlower : |range.lower.value| < 9007199254740992 := abs_lt.2 ⟨by linarith, by linarith⟩
  have hupper : |range.upper.value| < 9007199254740992 := abs_lt.2 ⟨by linarith, by linarith⟩
  rw [PercentRange.contains_iff]
  exact and_congr (Binary64.le_value_ofInt_iff _ _ hlower)
    (lt_iff_lt_of_le_iff_le (Binary64.le_value_ofInt_iff _ _ hupper))

namespace Field

theorem number_eq_ok_iff {spec : Document} {field tag : String} {x : Binary64} :
    number spec field tag = .ok x ↔
      ∃ n, spec.member? field = some (.number n) ∧ n.toBinary64 = x := by
  unfold number
  cases spec.member? field with
  | none => simp
  | some d => cases d <;> simp [Document.number?]

theorem rangeOf_eq_ok_iff {lower upper : Binary64} {tag : String} {r : PercentRange} :
    rangeOf lower upper tag = .ok r ↔ r.lower = lower ∧ r.upper = upper := by
  constructor
  · intro h
    unfold rangeOf at h
    split at h
    · split at h
      · cases h
        exact ⟨rfl, rfl⟩
      · cases h
    · cases h
  · rintro ⟨rfl, rfl⟩
    rw [rangeOf, dif_pos ⟨r.lower_nonneg, r.upper_le⟩, dif_pos r.lower_lt]

theorem percentRange_eq_ok_iff {spec : Document} {tag : String} {r : PercentRange} :
    percentRange spec tag = .ok r ↔ ∃ m n, spec.member? "from" = some (.number m) ∧
      spec.member? "to" = some (.number n) ∧ r.lower = m.toBinary64 ∧ r.upper = n.toBinary64 := by
  unfold percentRange
  simp only [Fault.bind_eq_ok_iff, number_eq_ok_iff, rangeOf_eq_ok_iff]
  constructor
  · rintro ⟨x, ⟨m, hm, rfl⟩, y, ⟨n, hn, rfl⟩, hr⟩
    exact ⟨m, n, hm, hn, hr⟩
  · rintro ⟨m, n, hm, hn, hr⟩
    exact ⟨_, ⟨m, hm, rfl⟩, _, ⟨n, hn, rfl⟩, hr⟩

/-- The range that two fields give has the numbers that are written as its bounds. -/
theorem values_of_percentRange {spec : Document} {tag : String} {r : PercentRange}
    (h : percentRange spec tag = .ok r) {m n : Number}
    (hm : spec.member? "from" = some (.number m)) (hn : spec.member? "to" = some (.number n)) :
    r.lower.value = m.value ∧ r.upper.value = n.value := by
  obtain ⟨m', n', hm', hn', hlower, hupper⟩ := percentRange_eq_ok_iff.1 h
  cases hm.symm.trans hm'
  cases hn.symm.trans hn'
  have hlt := (Binary64.lt_iff _ _).1 r.lower_lt
  have hnonneg := r.lower_nonneg
  have hle := r.upper_le
  rw [hlower] at hlt hnonneg
  rw [hupper] at hlt hle
  rw [hlower, hupper]
  exact ⟨Number.value_toBinary64 hnonneg (by omega), Number.value_toBinary64 (by omega) hle⟩

theorem interval_of_percentRange {spec : Document} {tag : String} {r : PercentRange}
    (h : percentRange spec tag = .ok r) {m n : Number}
    (hm : spec.member? "from" = some (.number m)) (hn : spec.member? "to" = some (.number n)) :
    r.interval = Set.Ico m.value n.value := by
  obtain ⟨hlower, hupper⟩ := values_of_percentRange h hm hn
  rw [PercentRange.interval, hlower, hupper]

end Field

end Rollout
