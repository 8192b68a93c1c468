import Mathlib.Data.Int.GCD
import Mathlib.Data.Nat.Find
import Mathlib.Data.Nat.ModEq
import Mathlib.Tactic.Ring
import Rollout.Random.Source

/-! # Draws from numbers with a fixed step

A bucket is drawn from the first word that is accepted. Whether a word is depends on its low 30 bits
alone, and of a number with a fixed step these run through all that leave the same remainder by the
common divisor of the step and `2 ^ 30`. So a word is accepted in the end, unless the step leaves the
low bits as they are and the first word is rejected. -/
namespace Rollout
set_option autoImplicit false

/-! ## Words of a source -/

namespace Random

variable {G : Type} [RandomSource G]

/-- The source after some words have been taken. -/
def skip (n : ℕ) (g : G) : G := (fun g => (RandomSource.word g).2)^[n] g

/-- The word that comes after `n` others. -/
def wordAt (g : G) (n : ℕ) : UInt32 := (RandomSource.word (skip n g)).1

/-- A draw ends at the first accepted word, if it comes within the tries. -/
theorem drawBucket_eq_some_iff {tries : ℕ} {g g' : G} {b : Fin 100} :
    drawBucket tries g = some (b, g') ↔ ∃ n < tries, (∀ k < n, bucket? (wordAt g k) = none) ∧
      bucket? (wordAt g n) = some b ∧ g' = skip (n + 1) g := by
  induction tries generalizing g with
  | zero => simp [drawBucket]
  | succ tries ih =>
    cases hw : bucket? (wordAt g 0) with
    | some c =>
      have hdraw : drawBucket (tries + 1) g = some (c, skip 1 g) := by
        have hw' : bucket? (RandomSource.word g).1 = some c := hw
        rw [drawBucket, hw']
        rfl
      rw [hdraw]
      constructor
      · rintro ⟨⟩
        exact ⟨0, Nat.succ_pos _, by simp, hw, rfl⟩
      · rintro ⟨n, -, hbefore, hb, rfl⟩
        -- An accepted first word cannot be one of the rejected ones.
        have hn : n = 0 := by
          by_contra hn
          have hnone := hbefore 0 (Nat.pos_of_ne_zero hn)
          rw [hw] at hnone
          cases hnone
        subst hn
        rw [hw] at hb
        cases hb
        rfl
    | none =>
      have hdraw : drawBucket (tries + 1) g = drawBucket tries (RandomSource.word g).2 := by
        have hw' : bucket? (RandomSource.word g).1 = none := hw
        rw [drawBucket, hw']
      rw [hdraw, ih]
      constructor
      · rintro ⟨n, hn, hbefore, hb, rfl⟩
        refine ⟨n + 1, by omega, fun k hk => ?_, hb, rfl⟩
        cases k with
        | zero => exact hw
        | succ k => exact hbefore k (by omega)
      · rintro ⟨n, hn, hbefore, hb, rfl⟩
        cases n with
        | zero =>
          rw [hw] at hb
          cases hb
        | succ n => exact ⟨n, by omega, fun k hk => hbefore (k + 1) (by omega), hb, rfl⟩

theorem drawBucket_isSome_iff {tries : ℕ} {g : G} :
    (drawBucket tries g).isSome ↔ ∃ n < tries, (bucket? (wordAt g n)).isSome := by
  rw [Option.isSome_iff_exists]
  constructor
  · rintro ⟨⟨b, g'⟩, h⟩
    obtain ⟨n, hn, -, hb, -⟩ := drawBucket_eq_some_iff.1 h
    exact ⟨n, hn, by rw [hb]; rfl⟩
  · rintro ⟨n, hn, hsome⟩
    -- The first accepted word comes no later than this one.
    classical
    have hex : ∃ k, (bucket? (wordAt g k)).isSome := ⟨n, hsome⟩
    have hfirst := Nat.find_spec hex
    obtain ⟨b, hb⟩ := Option.isSome_iff_exists.1 hfirst
    have hle : Nat.find hex ≤ n := Nat.find_min' hex hsome
    refine ⟨_, drawBucket_eq_some_iff.2 ⟨Nat.find hex, by omega, fun k hk => ?_, hb, rfl⟩⟩
    exact Option.not_isSome_iff_eq_none.1 (Nat.find_min hex hk)

/-- The quotient by four of the low half is what a word is accepted for. -/
theorem bucket?_isSome_iff (w : UInt32) :
    (bucket? w).isSome ↔ 25 * w.toNat % 2 ^ 30 < 25 * 2 ^ 25 := by
  have hsome : (bucket? w).isSome ↔ w.toNat * 100 % 4294967296 ≤ acceptance := by
    unfold bucket?
    split <;> simp_all
  have hfour : w.toNat * 100 % 4294967296 = 4 * (25 * w.toNat % 2 ^ 30) := by
    rw [← Nat.mul_mod_mul_left, ← Nat.mul_assoc, Nat.mul_comm w.toNat 100]
    norm_num
  rw [hsome, hfour, acceptance]
  omega

end Random

/-! ## Remainders along a step -/

/-- Multiples of a divisor lead from `a` to its remainder. -/
theorem exists_add_mul_mod {m d : ℕ} (hd : d ∣ m) (hpos : 0 < d) (hlt : d < m) (a : ℕ) :
    ∃ q, (a + q * d) % m = a % d := by
  obtain ⟨e, rfl⟩ := hd
  obtain ⟨e, rfl⟩ : ∃ n, e = n + 1 := Nat.exists_eq_succ_of_ne_zero (by rintro rfl; omega)
  refine ⟨e * (a / d), ?_⟩
  have hsplit : a + e * (a / d) * d = a % d + d * (e + 1) * (a / d) := by
    calc a + e * (a / d) * d = a % d + d * (a / d) + e * (a / d) * d := by rw [Nat.mod_add_div]
      _ = a % d + d * (e + 1) * (a / d) := by ring
  rw [hsplit, Nat.add_mul_mod_self_left]
  exact Nat.mod_eq_of_lt (lt_trans (Nat.mod_lt a hpos) hlt)

/-- The numbers from `a` on with a step that `m` does not divide come below half of `m`: they meet
the remainder of `a` by the common divisor of the step and `m`, which is at most that half. -/
theorem exists_add_mul_mod_lt {m s : ℕ} (hm : 0 < m) (hs : ¬m ∣ s) (a : ℕ) :
    ∃ k < m, 2 * ((a + k * s) % m) < m := by
  have hpos : 0 < Nat.gcd s m := Nat.gcd_pos_of_pos_right s hm
  have hlt : Nat.gcd s m < m :=
    lt_of_le_of_ne (Nat.gcd_le_right s hm) fun h => hs (h ▸ Nat.gcd_dvd_left s m)
  obtain ⟨q, hq⟩ := exists_add_mul_mod (Nat.gcd_dvd_right s m) hpos hlt a
  obtain ⟨c, -, hc⟩ := Nat.exists_mul_mod_eq_gcd hlt
  refine ⟨c * q % m, Nat.mod_lt _ hm, ?_⟩
  have hstep : c * q % m * s ≡ q * Nat.gcd s m [MOD m] := by
    have hgcd : s * c ≡ Nat.gcd s m [MOD m] := hc.trans (Nat.mod_eq_of_lt hlt).symm
    calc c * q % m * s ≡ c * q * s [MOD m] := (Nat.mod_modEq _ _).mul_right s
      _ = s * c * q := by ring
      _ ≡ Nat.gcd s m * q [MOD m] := hgcd.mul_right q
      _ = q * Nat.gcd s m := Nat.mul_comm _ q
  have hsame : (a + c * q % m * s) % m = a % Nat.gcd s m := Eq.trans (hstep.add_left a) hq
  have hmod := Nat.mod_lt a hpos
  have hhalf : 2 * Nat.gcd s m ≤ m := by
    obtain ⟨e, he⟩ := Nat.gcd_dvd_right s m
    have htwo : 2 ≤ e := by
      by_contra h
      have hle : Nat.gcd s m * e ≤ Nat.gcd s m * 1 := Nat.mul_le_mul_left _ (by omega)
      omega
    calc 2 * Nat.gcd s m = Nat.gcd s m * 2 := Nat.mul_comm 2 _
      _ ≤ Nat.gcd s m * e := Nat.mul_le_mul_left _ htwo
      _ = m := he.symm
  omega

/-! ## Numbers with a fixed step -/

namespace Generator

open Rollout.Random

theorem skip_stepping (first step : UInt64) (n : ℕ) :
    skip n (stepping first step) = stepping (first + UInt64.ofNat n * step) step := by
  induction n generalizing first with
  | zero =>
    have hzero : first + UInt64.ofNat 0 * step = first := by simp
    rw [hzero]
    rfl
  | succ n ih =>
    have hsucc : first + step + UInt64.ofNat n * step = first + UInt64.ofNat (n + 1) * step := by
      rw [UInt64.ofNat_add, UInt64.add_mul, UInt64.add_assoc]
      congr 1
      rw [UInt64.add_comm]
      congr 1
      exact (UInt64.one_mul step).symm
    rw [← hsucc, ← ih]
    rfl

theorem toNat_wordAt_stepping (first step : UInt64) (n : ℕ) :
    (wordAt (stepping first step) n).toNat = (first.toNat + n * step.toNat) % 2 ^ 32 := by
  have hword : wordAt (stepping first step) n = (first + UInt64.ofNat n * step).toUInt32 := by
    rw [wordAt, skip_stepping]
    rfl
  rw [hword, UInt64.toNat_toUInt32, UInt64.toNat_add, UInt64.toNat_mul, UInt64.toNat_ofNat']
  have hdvd : (2 : ℕ) ^ 32 ∣ 2 ^ 64 := pow_dvd_pow 2 (by decide)
  rw [Nat.mod_mod_of_dvd _ hdvd, Nat.add_mod, Nat.mod_mod_of_dvd _ hdvd, Nat.mul_mod,
    Nat.mod_mod_of_dvd _ hdvd, ← Nat.mul_mod, ← Nat.add_mod]

/-- No word is ever accepted: the first is rejected, and the step leaves the bits that decide as
they are. -/
def Stalls (first step : UInt64) : Prop := 2 ^ 30 ∣ step.toNat ∧ bucket? first.toUInt32 = none

theorem isSome_wordAt_iff (first step : UInt64) (n : ℕ) :
    (bucket? (wordAt (stepping first step) n)).isSome ↔
      (25 * first.toNat + n * (25 * step.toNat)) % 2 ^ 30 < 25 * 2 ^ 25 := by
  rw [bucket?_isSome_iff, toNat_wordAt_stepping]
  have hsame : 25 * ((first.toNat + n * step.toNat) % 2 ^ 32) % 2 ^ 30 =
      (25 * first.toNat + n * (25 * step.toNat)) % 2 ^ 30 := by
    have hsum : 25 * first.toNat + n * (25 * step.toNat) = 25 * (first.toNat + n * step.toNat) := by
      ring
    rw [hsum]
    omega
  rw [hsame]

/-- With a step that leaves the low bits as they are all words are accepted or none is. -/
theorem isSome_wordAt_of_dvd {first step : UInt64} (h : 2 ^ 30 ∣ step.toNat) (n : ℕ) :
    (bucket? (wordAt (stepping first step) n)).isSome ↔ (bucket? first.toUInt32).isSome := by
  have hfirst : (bucket? first.toUInt32).isSome ↔
      (bucket? (wordAt (stepping first step) 0)).isSome := Iff.rfl
  obtain ⟨c, hc⟩ := h
  have hmul : n * (25 * step.toNat) = 2 ^ 30 * (n * 25 * c) := by rw [hc]; ring
  rw [hfirst, isSome_wordAt_iff, isSome_wordAt_iff, hmul, Nat.add_mul_mod_self_left, Nat.zero_mul,
    Nat.add_zero]

theorem Stalls.eq_none {first step : UInt64} (h : Stalls first step) (n : ℕ) :
    bucket? (wordAt (stepping first step) n) = none := by
  rw [← Option.not_isSome_iff_eq_none, isSome_wordAt_of_dvd h.1, h.2]
  exact Bool.false_ne_true

theorem Stalls.drawBucket_eq_none {first step : UInt64} (h : Stalls first step) (tries : ℕ) :
    drawBucket tries (stepping first step) = none := by
  rw [← Option.not_isSome_iff_eq_none, drawBucket_isSome_iff]
  rintro ⟨n, -, hn⟩
  rw [h.eq_none n] at hn
  cases hn

theorem exists_wordAt_isSome {first step : UInt64} (h : ¬Stalls first step) :
    ∃ n < 2 ^ 30, (bucket? (wordAt (stepping first step) n)).isSome := by
  by_cases hdvd : 2 ^ 30 ∣ step.toNat
  · have hsome : (bucket? first.toUInt32).isSome := by
      rw [Option.isSome_iff_ne_none]
      exact fun hnone => h ⟨hdvd, hnone⟩
    exact ⟨0, by decide, (isSome_wordAt_of_dvd hdvd 0).2 hsome⟩
  · -- Multiplying by 25 keeps the step from being divided.
    have hdvd' : ¬2 ^ 30 ∣ 25 * step.toNat := fun h25 =>
      hdvd ((Nat.Coprime.pow_left 30 (by decide)).dvd_of_dvd_mul_left h25)
    obtain ⟨n, hn, hlow⟩ := exists_add_mul_mod_lt (by decide) hdvd' (25 * first.toNat)
    exact ⟨n, hn, (isSome_wordAt_iff first step n).2 (by omega)⟩

/-- Taking words does not change whether one will be accepted. -/
theorem stalls_add {first step : UInt64} : Stalls (first + step) step ↔ Stalls first step := by
  have hsplit : Stalls (first + step) step → Stalls first step := by
    rintro ⟨hdvd, hnone⟩
    refine ⟨hdvd, ?_⟩
    have hword : bucket? (wordAt (stepping first step) 1) = none := hnone
    rw [← Option.not_isSome_iff_eq_none, isSome_wordAt_of_dvd hdvd,
      Option.not_isSome_iff_eq_none] at hword
    exact hword
  refine ⟨hsplit, fun h => ⟨h.1, ?_⟩⟩
  exact h.eq_none 1

end Generator

end Rollout
