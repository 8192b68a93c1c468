import Mathlib.Algebra.BigOperators.Fin
import Mathlib.Data.Int.ModEq
import Mathlib.Tactic.Ring
import Rollout.Proofs.Condition.Username

/-! # The hash of a name as a polynomial

Hashing a text unit by unit, with wrapping at every step, gives the polynomial in 31 over its 16-bit
units, read as a number of 32 bits with a sign. The bucket is the remainder of that signed number,
and it is another one than the remainder of the same 32 bits without a sign wherever the hash is
negative. -/
namespace Rollout
set_option autoImplicit false

/-! ## Texts in 16-bit units -/

namespace Text

/-- A text and its UTF-16 form: a character is its own unit, or one past U+FFFF is a high and a low
surrogate with ten bits each of what is above `2 ^ 16`. -/
inductive Utf16 : List Char → List ℕ → Prop where
  | nil : Utf16 [] []
  | unit {c : Char} {cs : List Char} {us : List ℕ} (hc : c.toNat < 0x10000) (rest : Utf16 cs us) :
      Utf16 (c :: cs) (c.toNat :: us)
  | pair {c : Char} {cs : List Char} {us : List ℕ} {high low : ℕ} (hhigh : isHighSurrogate high)
      (hlow : isLowSurrogate low)
      (hc : c.toNat = 0x10000 + (high - 0xd800) * 0x400 + (low - 0xdc00)) (rest : Utf16 cs us) :
      Utf16 (c :: cs) (high :: low :: us)

theorem isHighSurrogate_iff {n : ℕ} : isHighSurrogate n = true ↔ 0xd800 ≤ n ∧ n < 0xdc00 := by
  simp [isHighSurrogate]

theorem isLowSurrogate_iff {n : ℕ} : isLowSurrogate n = true ↔ 0xdc00 ≤ n ∧ n < 0xe000 := by
  simp [isLowSurrogate]

theorem utf16_cons (c : Char) {cs : List Char} {us : List ℕ} (rest : Utf16 cs us) :
    Utf16 (c :: cs) (units16 c ++ us) := by
  have hlt : c.toNat < 0x110000 := by
    have hvalid : c.toNat < 0xd800 ∨ 0xdfff < c.toNat ∧ c.toNat < 0x110000 := c.valid
    omega
  unfold units16
  split
  · rename_i hc
    exact .unit hc rest
  · exact .pair (isHighSurrogate_iff.2 (by omega)) (isLowSurrogate_iff.2 (by omega)) (by omega) rest

theorem Utf16.eq_flatMap {cs : List Char} {us : List ℕ} (h : Utf16 cs us) :
    us = cs.flatMap units16 := by
  induction h with
  | nil => rfl
  | unit hc _ ih => rw [List.flatMap_cons, ← ih, units16, if_pos hc, List.singleton_append]
  | @pair c cs us high low hhigh hlow hc _ ih =>
    rw [isHighSurrogate_iff] at hhigh
    rw [isLowSurrogate_iff] at hlow
    have hhigh' : 0xd800 + (c.toNat - 0x10000) / 0x400 = high := by omega
    have hlow' : 0xdc00 + (c.toNat - 0x10000) % 0x400 = low := by omega
    rw [List.flatMap_cons, ← ih, units16, if_neg (by omega), hhigh', hlow']
    rfl

/-- The units of a text are its UTF-16 form, and it has no other. -/
theorem utf16_iff_units {s : String} {us : List ℕ} : Utf16 s.toList us ↔ us = units s := by
  constructor
  · exact Utf16.eq_flatMap
  · rintro rfl
    unfold units
    induction s.toList with
    | nil => exact .nil
    | cons c cs ih => exact utf16_cons c ih

theorem units_append (s t : String) : units (s ++ t) = units s ++ units t := by
  rw [units, String.toList_append, List.flatMap_append]
  rfl

end Text

namespace Bucket

/-! ## The polynomial -/

/-- The polynomial in 31 whose coefficients are these units, the first one at the highest power. -/
def polynomial (us : List ℕ) : ℕ := ∑ i : Fin us.length, us[i] * 31 ^ (us.length - 1 - i)

theorem polynomial_nil : polynomial [] = 0 := rfl

theorem polynomial_cons (u : ℕ) (us : List ℕ) :
    polynomial (u :: us) = u * 31 ^ us.length + polynomial us := by
  unfold polynomial
  simp only [List.length_cons]
  rw [Fin.sum_univ_succ]
  congr 1
  refine Finset.sum_congr rfl fun i _ => ?_
  have hpower : us.length + 1 - 1 - (i.succ : ℕ) = us.length - 1 - i := by
    rw [Fin.val_succ]
    omega
  rw [hpower]
  rfl

/-! ## The hash -/

theorem toInt_step (h : Int32) (u : ℕ) :
    (h * 31 + Int32.ofNat u).toInt ≡ h.toInt * 31 + u [ZMOD 2 ^ 32] := by
  have hthirtyOne : (31 : Int32).toInt = 31 := by decide
  have hsize : (Int32.size : ℕ) = 2 ^ 32 := rfl
  rw [Int32.toInt_add, Int32.toInt_mul, Int32.toInt_ofNat', hthirtyOne, hsize, Int.bmod_add_bmod,
    Int.add_bmod_bmod]
  exact Int.bmod_emod

/-- The steps of the hash, from any number on: it moves up by one power for each unit. -/
theorem toInt_steps (h : Int32) (us : List ℕ) :
    (us.foldl (fun h u => h * 31 + Int32.ofNat u) h).toInt ≡
      h.toInt * 31 ^ us.length + polynomial us [ZMOD 2 ^ 32] := by
  -- On the units from the left: what follows the first one starts from another number than `h`.
  induction us generalizing h with
  | nil => simp [polynomial_nil]
  | cons u us ih =>
    have hstep := ((toInt_step h u).mul_right (31 ^ us.length)).add_right (polynomial us : ℤ)
    have hsum : (h.toInt * 31 + u) * 31 ^ us.length + (polynomial us : ℤ) =
        h.toInt * 31 ^ (us.length + 1) + (polynomial (u :: us) : ℕ) := by
      rw [polynomial_cons]
      push_cast
      ring
    rw [List.foldl_cons, List.length_cons, ← hsum]
    exact (ih _).trans hstep

theorem toInt_hash (s : String) : (hash s).toInt ≡ polynomial (Text.units s) [ZMOD 2 ^ 32] := by
  have hsteps := toInt_steps 0 (Text.units s)
  rwa [Int32.toInt_zero, zero_mul, zero_add] at hsteps

theorem toInt_hash_append (s t : String) : (hash (s ++ t)).toInt ≡
    (hash s).toInt * 31 ^ (Text.units t).length + (hash t).toInt [ZMOD 2 ^ 32] := by
  have hsteps := toInt_steps (hash s) (Text.units t)
  have hunits : (Text.units t).foldl (fun h u => h * 31 + Int32.ofNat u) (hash s) =
      hash (s ++ t) := by
    rw [hash, hash, Text.units_append, List.foldl_append]
  rw [hunits] at hsteps
  exact hsteps.trans ((toInt_hash t).symm.add_left _)

/-- The 32 bits of a hash without their sign. -/
theorem toNat_toUInt32_hash (s : String) : ((hash s).toUInt32.toNat : ℤ) =
    if 0 ≤ (hash s).toInt then (hash s).toInt else (hash s).toInt + 2 ^ 32 := by
  have hsigned := BitVec.toInt_eq_toNat_cond (hash s).toBitVec
  have hlt := (hash s).toBitVec.isLt
  rw [Int32.toInt_toBitVec] at hsigned
  show (((hash s).toBitVec.toNat : ℕ) : ℤ) = _
  split at hsigned <;> split <;> omega

/-! ## The hash and the bucket of a name -/

/-- A hash is the one number of 32 bits with a sign that the polynomial over the UTF-16 units of the
text leaves, so a hash goes on from that of what stands before. A bucket is the one percent that the
signed hash leaves, and the hash without its sign leaves another one where it is negative. -/
theorem hash_polynomial (s : String) :
    (∀ us, Text.Utf16 s.toList us ↔ us = Text.units s) ∧
    (∀ h : ℤ, h = (hash s).toInt ↔
      (-2 ^ 31 ≤ h ∧ h < 2 ^ 31) ∧ h ≡ polynomial (Text.units s) [ZMOD 2 ^ 32]) ∧
    (∀ t, (hash (s ++ t)).toInt ≡
      (hash s).toInt * 31 ^ (Text.units t).length + (hash t).toInt [ZMOD 2 ^ 32]) ∧
    (∀ b : ℤ, b = (ofName s).toInt ↔ (0 ≤ b ∧ b < 100) ∧ b ≡ (hash s).toInt [ZMOD 100]) ∧
    ((ofName s).toInt ≡ (hash s).toUInt32.toNat [ZMOD 100] ↔ 0 ≤ (hash s).toInt) := by
  have hlower := (hash s).le_toInt
  have hupper := (hash s).toInt_lt
  have hpolynomial := toInt_hash s
  have hpercent := ofName_percent s
  have hbucket : (ofName s).toInt ≡ (hash s).toInt [ZMOD 100] := by
    rw [toInt_ofName]
    exact Int.mod_modEq _ _
  have hunsigned := toNat_toUInt32_hash s
  refine ⟨fun _ => Text.utf16_iff_units, fun h => ?_, toInt_hash_append s, fun b => ?_, ?_⟩
  · constructor
    · rintro rfl
      exact ⟨⟨hlower, hupper⟩, hpolynomial⟩
    · rintro ⟨hrange, hh⟩
      have hsame := hh.trans hpolynomial.symm
      unfold Int.ModEq at hsame
      omega
  · constructor
    · rintro rfl
      exact ⟨hpercent, hbucket⟩
    · rintro ⟨hrange, hb⟩
      have hsame := hb.trans hbucket.symm
      unfold Int.ModEq at hsame
      omega
  · -- `2 ^ 32` leaves 96 modulo 100, so the two readings of a negative hash never meet.
    unfold Int.ModEq at hbucket ⊢
    split at hunsigned <;> omega

/-- The least hash there is, which without its sign would fall in bucket 48. -/
example : (hash "polygenelubricants").toInt = -2147483648 ∧
    (ofName "polygenelubricants").toInt = 52 := by decide +kernel

end Bucket

end Rollout
