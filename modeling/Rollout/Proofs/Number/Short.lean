import Rollout.Number.Decimal
import Rollout.Proofs.Number.Value

/-! # Short decimals

A decimal of no more than 53 bits whose exponent a number can scale by exactly is read alike by both
readers: its digits and the power of ten are numbers themselves, so the only rounding is the one of
their product or quotient. -/
namespace Rollout
set_option autoImplicit false

namespace Binary64

/-! ## Common factors -/

theorem roundHalfEven_mul_right (n d : Nat) {c : Nat} (hc : 0 < c) :
    roundHalfEven (n * c) (d * c) = roundHalfEven n d := by
  have hrest : 2 * (n * c % (d * c)) = 2 * (n % d) * c := by rw [Nat.mul_mod_mul_right, Nat.mul_assoc]
  unfold roundHalfEven
  rw [hrest, Nat.mul_div_mul_right n d hc]
  simp only [Nat.mul_lt_mul_right hc]

theorem nearest?_mul_right (negative : Bool) (num den : Nat) {c : Nat} (hc : 0 < c) :
    nearest? negative (num * c) (den * c) = nearest? negative num den := by
  have hunits : num * c * perOne = num * perOne * c := Nat.mul_right_comm num c perOne
  have hscaled : ∀ s, den * c * twoTo s = den * twoTo s * c := fun s => Nat.mul_right_comm den c (twoTo s)
  unfold nearest?
  simp only [hunits, Nat.mul_div_mul_right _ _ hc, hscaled, roundHalfEven_mul_right _ _ hc]

theorem nearest?_zero (negative : Bool) {den : Nat} (hden : 0 < den) :
    nearest? negative 0 den = nearest? negative 0 1 := by
  have h := nearest?_mul_right negative 0 1 hden
  rwa [Nat.zero_mul, Nat.one_mul] at h

end Binary64

namespace Decimal

open Binary64

/-! ## Digits and powers -/

theorem exists_digits (negative : Bool) {n : Nat} (hn : n < 9007199254740992) : ∃ x : Binary64,
    nearest? negative n 1 = some x ∧ x.magnitude = n * perOne := by
  obtain ⟨x, hx⟩ := Option.isSome_iff_exists.1
    (@nearest?_ratio_isSome negative n 1 (by omega))
  exact ⟨x, hx, magnitude_of_exact Nat.one_pos hn (Nat.mul_one _).symm hx⟩

theorem exists_power {k : Nat} (hk : k ≤ 22) : ∃ x : Binary64,
    power? k = some x ∧ x.magnitude = tenTo k * perOne := by
  have hfive : ∀ k ≤ 22, Nat.pow 5 k < 9007199254740992 := by decide
  have hten : tenTo k = Nat.pow 5 k * twoTo k := Nat.mul_pow 5 2 k
  have hexact : tenTo k * perOne = Nat.pow 5 k * twoTo (k + 1074) * 1 := by
    rw [hten, Nat.mul_one, Nat.mul_assoc, twoTo_mul_perOne]
  have hlt : tenTo k * perOne / 1 < twoTo 2096 := by
    rw [Nat.div_one, hexact, Nat.mul_one]
    exact mul_twoTo_lt (twoTo_53 ▸ hfive k hk) (by omega)
  obtain ⟨x, hx⟩ := Option.isSome_iff_exists.1 (@nearest?_isSome false _ _ hlt)
  refine ⟨x, hx, ?_⟩
  rw [magnitude_of_exact Nat.one_pos (hfive k hk) hexact hx, hexact, Nat.mul_one]

/-! ## One rounding -/

/-- The value as one quotient, rounded. -/
def quotient? (negative : Bool) (d : Decimal) : Option Binary64 :=
  if 0 ≤ d.exponent then nearest? negative (d.digits * tenTo d.exponent.natAbs) 1
  else nearest? negative d.digits (tenTo d.exponent.natAbs)

theorem scaled?_eq_quotient? {d : Decimal} (hdigits : d.digits < 9007199254740992)
    (hexponent : d.exponent.natAbs ≤ 22) (negative : Bool) :
    d.scaled? negative = d.quotient? negative := by
  obtain ⟨x, hx, hxmag⟩ := exists_digits negative hdigits
  obtain ⟨p, hp, hpmag⟩ := exists_power hexponent
  have hmax : d.exponent.natAbs ≤ maxPower := Nat.le_trans hexponent (by decide)
  have htimes : x.times? negative p = nearest? negative (d.digits * tenTo d.exponent.natAbs) 1 := by
    have hfactor := nearest?_mul_right negative (d.digits * tenTo d.exponent.natAbs) 1
      (Nat.mul_pos perOne_pos perOne_pos)
    rwa [Nat.one_mul, Nat.mul_mul_mul_comm, ← hxmag, ← hpmag] at hfactor
  have hover : x.over? negative p = nearest? negative d.digits (tenTo d.exponent.natAbs) := by
    rw [over?, hxmag, hpmag, nearest?_mul_right _ _ _ perOne_pos]
  rw [scaled?, hx, Option.bind_some, scale?, if_pos hmax, hp, Option.bind_some, htimes, hover, quotient?]

theorem toBinary64?_eq_quotient? {d : Decimal} (hexponent : d.exponent.natAbs ≤ 22)
    (negative : Bool) : d.toBinary64? negative = d.quotient? negative := by
  have hlow : ¬d.exponent + d.digits.log2 + 1 < -400 := by omega
  rw [toBinary64?, quotient?, if_neg (by omega : ¬310 < d.exponent), if_neg hlow]
  by_cases hsign : 0 ≤ d.exponent
  · rw [if_pos hsign, if_pos hsign, show d.exponent.toNat = d.exponent.natAbs by omega]
    split
    · rename_i hzero
      rw [hzero, Nat.zero_mul]
    · rfl
  · rw [if_neg hsign, if_neg hsign, show (-d.exponent).toNat = d.exponent.natAbs by omega]
    split
    · rename_i hzero
      rw [hzero, nearest?_zero negative (tenTo_pos _)]
    · rfl

/-- Scaling the digits of a short decimal rounds once. -/
theorem scaled?_of_short {d : Decimal} (hdigits : d.digits < 9007199254740992)
    (hexponent : d.exponent.natAbs ≤ 22) (negative : Bool) :
    d.scaled? negative = d.toBinary64? negative := by
  rw [scaled?_eq_quotient? hdigits hexponent, toBinary64?_eq_quotient? hexponent]

end Decimal

end Rollout
