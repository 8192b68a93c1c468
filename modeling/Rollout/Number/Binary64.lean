import Rollout.Number.Power

/-! Finite binary64 numbers, kept as the integers they are: a number is a sign and
`significand * 2 ^ scale` units of `2 ^ -1074`, the least positive one. Comparing is comparing
units, so nothing here rounds but `nearest?`, which takes a quotient of naturals to the nearest
number, ties to the even significand. -/
namespace Rollout
set_option autoImplicit false

/-- A finite binary64 number in its one canonical form: the significand is below `2 ^ 53`, and it is
at least `2 ^ 52` unless the scale is least. Zero has two signs. -/
structure Binary64 where
  negative : Bool
  significand : Nat
  scale : Nat
  significand_lt : significand < 9007199254740992
  scale_le : scale ≤ 2045
  normal : scale = 0 ∨ 4503599627370496 ≤ significand
  deriving DecidableEq

namespace Binary64

/-! ## The value in units -/

/-- The number of units in one. -/
def perOne : Nat := twoTo 1074

def magnitude (x : Binary64) : Nat := x.significand * twoTo x.scale

/-- The value in units. -/
def units (x : Binary64) : Int := if x.negative then -(x.magnitude : Int) else x.magnitude

def unitsOf (n : Int) : Int := n * perOne

instance : LE Binary64 := ⟨fun x y => x.units ≤ y.units⟩
instance : LT Binary64 := ⟨fun x y => x.units < y.units⟩
instance (x y : Binary64) : Decidable (x ≤ y) := inferInstanceAs (Decidable (x.units ≤ y.units))
instance (x y : Binary64) : Decidable (x < y) := inferInstanceAs (Decidable (x.units < y.units))

theorem le_iff (x y : Binary64) : x ≤ y ↔ x.units ≤ y.units := Iff.rfl
theorem lt_iff (x y : Binary64) : x < y ↔ x.units < y.units := Iff.rfl

/-- No digits after the binary point. -/
def isInteger (x : Binary64) : Bool := x.magnitude % perOne = 0

/-! ## The interchange form -/

/-- The 64 bits of the interchange format. The exponent field counts a scale of zero once for the
numbers that do not use all of their significand, so field and fraction together are
`scale * 2 ^ 52 + significand`. -/
def bits (x : Binary64) : Nat :=
  (if x.negative then twoTo 63 else 0) + x.scale * twoTo 52 + x.significand

/-! ## Rounding -/

/-- `n / d` to the nearest natural, ties to the even one. -/
def roundHalfEven (n d : Nat) : Nat :=
  if 2 * (n % d) < d then n / d
  else if d < 2 * (n % d) then n / d + 1
  else n / d + n / d % 2

/-- The number with this significand and scale; a significand of `2 ^ 53` moves to the next
scale. -/
def ofParts? (negative : Bool) (m s : Nat) : Option Binary64 :=
  if h : m < 9007199254740992 ∧ s ≤ 2045 ∧ (s = 0 ∨ 4503599627370496 ≤ m) then
    some ⟨negative, m, s, h.1, h.2.1, h.2.2⟩
  else if h : m = 9007199254740992 ∧ s < 2045 then
    some ⟨negative, 4503599627370496, s + 1, by decide, h.2, .inr (Nat.le_refl _)⟩
  else none

/-- `± num / den` to the nearest number, `none` where that is past the greatest one. -/
def nearest? (negative : Bool) (num den : Nat) : Option Binary64 :=
  let n := num * perOne
  let s := (n / den).log2 - 52
  ofParts? negative (roundHalfEven n (den * twoTo s)) s

theorem roundHalfEven_bounds (n d : Nat) :
    n / d ≤ roundHalfEven n d ∧ roundHalfEven n d ≤ n / d + 1 := by
  unfold roundHalfEven
  split
  · omega
  · split <;> omega

theorem ofParts?_isSome {negative : Bool} {m s : Nat} (hm : m ≤ 9007199254740992)
    (hs : s < 2045) (hn : s = 0 ∨ 4503599627370496 ≤ m) : (ofParts? negative m s).isSome := by
  unfold ofParts?
  split
  · rfl
  · rename_i h
    rw [dif_pos ⟨by omega, hs⟩]
    rfl

/-- Rounding a magnitude of `k` units over one stays in the format while `k` is within it. -/
theorem nearest?_isSome {negative : Bool} {num den : Nat}
    (h : num * perOne / den < twoTo 2096) : (nearest? negative num den).isSome := by
  show (ofParts? negative (roundHalfEven (num * perOne)
    (den * twoTo ((num * perOne / den).log2 - 52))) ((num * perOne / den).log2 - 52)).isSome
  generalize hk : num * perOne / den = k at h ⊢
  have hlog : k.log2 < 2096 := by
    by_cases h0 : k = 0
    · subst h0; decide
    · exact log2_lt_of_lt h0 h
  have hq : num * perOne / (den * twoTo (k.log2 - 52)) = k / twoTo (k.log2 - 52) := by
    rw [← Nat.div_div_eq_div_mul, hk]
  have hb := roundHalfEven_bounds (num * perOne) (den * twoTo (k.log2 - 52))
  rw [hq] at hb
  have hup : k / twoTo (k.log2 - 52) < twoTo 53 := by
    rw [Nat.div_lt_iff_lt_mul (twoTo_pos _), ← twoTo_add]
    exact Nat.lt_of_lt_of_le (lt_twoTo_log2 k) (twoTo_le (by omega))
  have h53 : twoTo 53 = 9007199254740992 := by decide
  refine ofParts?_isSome (by omega) (by omega) ?_
  by_cases hs : k.log2 - 52 = 0
  · exact .inl hs
  · refine .inr (Nat.le_trans ?_ hb.1)
    have h0 : k ≠ 0 := by
      intro h0
      subst h0
      exact hs (by decide)
    have h52 : 4503599627370496 = twoTo 52 := by decide
    rw [h52, Nat.le_div_iff_mul_le (twoTo_pos _), ← twoTo_add]
    exact Nat.le_trans (twoTo_le (by omega)) (twoTo_log2_le h0)

/-- A quotient of a number of 64 bits is in range. -/
theorem nearest?_ratio_isSome (negative : Bool) {n : Nat} (d : Nat)
    (h : n < 18446744073709551616) : (nearest? negative n d).isSome := by
  have h64 : n < twoTo 64 := h
  exact nearest?_isSome
    (Nat.lt_of_le_of_lt (Nat.div_le_self _ _) (mul_twoTo_lt h64 (by decide)))

/-- An integer of at most 64 bits to the nearest number. -/
def ofInt (i : Int) (h : i.natAbs < 18446744073709551616) : Binary64 :=
  (nearest? (i < 0) i.natAbs 1).get (nearest?_ratio_isSome _ 1 h)

/-- A quotient of a number of 64 bits to the nearest number. -/
def ofRatio (n d : Nat) (h : n < 18446744073709551616) : Binary64 :=
  (nearest? false n d).get (nearest?_ratio_isSome _ d h)

/-- The product of two magnitudes, rounded; `none` past the greatest number. -/
def times? (negative : Bool) (x y : Binary64) : Option Binary64 :=
  nearest? negative (x.magnitude * y.magnitude) (perOne * perOne)

def over? (negative : Bool) (x y : Binary64) : Option Binary64 :=
  nearest? negative x.magnitude y.magnitude

def zero : Binary64 := ⟨false, 0, 0, by decide, by decide, .inl rfl⟩

end Binary64

end Rollout
