import Mathlib.Data.Rat.Floor
import Mathlib.Data.Set.Card
import Rollout.Condition.Registry
import Rollout.Proofs.Condition.Percent

/-! # Chances without rounding

A uniform number is made of the 53 high bits of what the source yields, so it is a multiple of
`2 ^ -53` and is not rounded. A chance of `v` therefore comes true for the draws that lie below
`v * 2 ^ 53`, neither one more nor one less. -/
namespace Rollout
set_option autoImplicit false

/-! ## Uniform numbers -/

namespace Random

/-- The draw that 64 bits make: their 53 high bits. -/
def highBits (x : UInt64) : ℕ := x.toNat / 2 ^ 11

theorem highBits_lt (x : UInt64) : highBits x < 2 ^ 53 := by
  have hlt := x.toNat_lt
  unfold highBits
  omega

theorem range_highBits : Set.range highBits = Finset.range (2 ^ 53) := by
  ext k
  rw [Finset.coe_range, Set.mem_Iio]
  constructor
  · rintro ⟨x, rfl⟩
    exact highBits_lt x
  · intro hk
    have htoNat : (UInt64.ofNat (k * 2 ^ 11)).toNat = k * 2 ^ 11 :=
      UInt64.toNat_ofNat_of_lt' (by
        show k * 2 ^ 11 < 2 ^ 64
        omega)
    refine ⟨UInt64.ofNat (k * 2 ^ 11), ?_⟩
    rw [highBits, htoNat, Nat.mul_div_cancel _ (by decide)]

theorem value_uniformOf (x : UInt64) : (uniformOf x).value = highBits x / 2 ^ 53 := by
  have hvalue := Binary64.value_ofRatio
    (Nat.lt_of_le_of_lt (Nat.div_le_self x.toNat 2048) x.toNat_lt) (highBits_lt x)
    (by decide : 53 ≤ 1074)
  rw [Binary64.twoTo_53] at hvalue
  rw [show (2 ^ 53 : ℚ) = (9007199254740992 : ℕ) by norm_num]
  exact hvalue

theorem uniformOf_lt_iff (x : UInt64) (y : Binary64) :
    uniformOf x < y ↔ (highBits x : ℚ) < y.value * 2 ^ 53 := by
  rw [Binary64.lt_iff_value_lt, value_uniformOf, div_lt_iff₀ (by norm_num)]

/-! ## How many draws lie below a chance -/

variable {v : ℚ} (h1 : v ≤ 1)
include h1

theorem ceil_le_of_le_one : ⌈v * 2 ^ 53⌉₊ ≤ 2 ^ 53 := by
  rw [Nat.ceil_le]
  push_cast
  linarith

/-- The draws below `v * 2 ^ 53` are as many as that number, rounded up. -/
theorem ncard_draws :
    {k ∈ Set.range highBits | (k : ℚ) < v * 2 ^ 53}.ncard = ⌈v * 2 ^ 53⌉₊ := by
  have hle := ceil_le_of_le_one h1
  have hbelow : {k ∈ Set.range highBits | (k : ℚ) < v * 2 ^ 53} =
      Finset.range ⌈v * 2 ^ 53⌉₊ := by
    ext k
    rw [range_highBits, Finset.coe_range, Finset.coe_range, Set.mem_sep_iff, Set.mem_Iio,
      Set.mem_Iio, ← Nat.lt_ceil]
    exact ⟨And.right, fun hk => ⟨hk.trans_le hle, hk⟩⟩
  rw [hbelow, Set.ncard_coe_finset, Finset.card_range]

/-- Each draw is made of `2 ^ 11` of the numbers of 64 bits. -/
theorem ncard_outputs :
    {x : UInt64 | (highBits x : ℚ) < v * 2 ^ 53}.ncard = 2 ^ 11 * ⌈v * 2 ^ 53⌉₊ := by
  have hle := ceil_le_of_le_one h1
  -- The draw of `x` lies below a number exactly if `x` lies below `2 ^ 11` times that number.
  have himage : UInt64.toNat '' {x : UInt64 | (highBits x : ℚ) < v * 2 ^ 53} =
      Finset.range (2 ^ 11 * ⌈v * 2 ^ 53⌉₊) := by
    ext m
    simp only [Set.mem_image, Set.mem_ofPred_eq, ← Nat.lt_ceil, Finset.coe_range, Set.mem_Iio]
    constructor
    · rintro ⟨x, hx, rfl⟩
      unfold highBits at hx
      omega
    · intro hm
      have htoNat : (UInt64.ofNat m).toNat = m := UInt64.toNat_ofNat_of_lt' (by
        show m < 2 ^ 64
        omega)
      refine ⟨UInt64.ofNat m, ?_, htoNat⟩
      rw [highBits, htoNat]
      omega
  have hinjective : Function.Injective UInt64.toNat := fun _ _ => UInt64.toNat_inj.1
  rw [← Set.ncard_image_of_injective _ hinjective, himage, Set.ncard_coe_finset, Finset.card_range]

end Random

/-! ## Accepted chances -/

namespace Field

theorem chance_eq_ok_iff {spec : Document} {tag : String} {c : Chance} :
    chance spec tag = .ok c ↔
      ∃ n, spec.member? "value" = some (.number n) ∧ c.value = n.toBinary64 := by
  unfold chance
  simp only [Fault.bind_eq_ok_iff, number_eq_ok_iff]
  constructor
  · rintro ⟨x, ⟨n, hn, rfl⟩, h⟩
    split at h
    · cases h
      exact ⟨n, hn, rfl⟩
    · cases h
  · rintro ⟨n, hn, hc⟩
    refine ⟨c.value, ⟨n, hn, hc.symm⟩, ?_⟩
    rw [dif_pos ⟨c.nonneg, c.le_one⟩]
    rfl

/-- The chance that is accepted is the number that is written. -/
theorem value_of_chance {spec : Document} {tag : String} {c : Chance} (h : chance spec tag = .ok c)
    {n : Number} (hn : spec.member? "value" = some (.number n)) : c.value.value = n.value := by
  obtain ⟨n', hn', hc⟩ := chance_eq_ok_iff.1 h
  cases hn.symm.trans hn'
  have hnonneg := c.nonneg
  have hle := Binary64.units_le_unitsOf_iff.1 c.le_one
  have hpercent : c.value.units ≤ Binary64.unitsOf 100 :=
    Binary64.units_le_unitsOf_iff.2 (hle.trans (by norm_num))
  rw [hc] at hnonneg hpercent ⊢
  exact Number.value_toBinary64 hnonneg hpercent

theorem exists_chance_iff (spec : Document) (tag : String) : (∃ c, chance spec tag = .ok c) ↔
    ∃ n, spec.member? "value" = some (.number n) ∧ 0 ≤ n.value ∧ n.value ≤ 1 := by
  constructor
  · rintro ⟨c, h⟩
    obtain ⟨n, hn, -⟩ := chance_eq_ok_iff.1 h
    have hle := Binary64.units_le_unitsOf_iff.1 c.le_one
    rw [value_of_chance h hn] at hle
    refine ⟨n, hn, ?_, by exact_mod_cast hle⟩
    rw [← value_of_chance h hn]
    exact Binary64.units_nonneg_iff.1 c.nonneg
  · rintro ⟨n, hn, h0, h1⟩
    have hvalue := Number.value_toBinary64_of_mem h0 (h1.trans (by norm_num))
    have hnonneg : 0 ≤ n.toBinary64.units := Binary64.units_nonneg_iff.2 (hvalue ▸ h0)
    have hle : n.toBinary64.units ≤ Binary64.unitsOf 1 :=
      Binary64.units_le_unitsOf_iff.2 (by rw [hvalue]; exact_mod_cast h1)
    exact ⟨⟨_, hnonneg, hle⟩, chance_eq_ok_iff.2 ⟨n, hn, rfl⟩⟩

end Field

/-! ## Tests of a chance -/

variable {G : Type}

theorem Condition.test_random [RandomSource G] (chance : Chance) (ctx : Context) (s : Scope G) :
    (random chance).test ctx s =
      some ⟨decide ((Random.highBits (RandomSource.wide s.source).1 : ℚ) <
        chance.value.value * 2 ^ 53), s.withSource (RandomSource.wide s.source).2, []⟩ := by
  rw [← decide_eq_decide.2 (Random.uniformOf_lt_iff _ chance.value)]
  rfl

namespace Kind

theorem exists_build_random_iff (spec : Document) :
    (∃ c : Condition G, random.build spec = .ok c) ↔
      ∃ n, spec.member? "value" = some (.number n) ∧ 0 ≤ n.value ∧ n.value ≤ 1 := by
  have hbuild : (random : Kind G).build spec = (Field.chance spec "RANDOM").map .random := rfl
  rw [hbuild, Fault.exists_map_eq_ok_iff, Field.exists_chance_iff]

/-- The condition that is built of a chance tests the draw against the number that is written. -/
theorem test_of_build_random [RandomSource G] {spec : Document} {c : Condition G}
    (h : random.build spec = .ok c) {n : Number} (hn : spec.member? "value" = some (.number n))
    (ctx : Context) (s : Scope G) :
    c.test ctx s = some ⟨decide ((Random.highBits (RandomSource.wide s.source).1 : ℚ) <
      n.value * 2 ^ 53), s.withSource (RandomSource.wide s.source).2, []⟩ := by
  obtain ⟨chance, hchance, rfl⟩ := Fault.map_eq_ok_iff.1 h
  rw [Condition.test_random, Field.value_of_chance hchance hn]

/-- A chance is accepted exactly if it is a number from 0 to 1, and its tests hold for the draws below
`2 ^ 53` times that number: so for as many draws as this is, rounded up, for all of them if the chance
is 1 and for none if it is 0, and for no fewer if the chance is greater. -/
theorem random_exact [RandomSource G] (spec : Document) :
    ((∃ c : Condition G, random.build spec = .ok c) ↔
      ∃ n, spec.member? "value" = some (.number n) ∧ 0 ≤ n.value ∧ n.value ≤ 1) ∧
    ∀ (c : Condition G) n, random.build spec = .ok c → spec.member? "value" = some (.number n) →
      (∀ ctx s, c.test ctx s = some ⟨decide ((Random.highBits (RandomSource.wide s.source).1 : ℚ) <
        n.value * 2 ^ 53), s.withSource (RandomSource.wide s.source).2, []⟩) ∧
      (Set.range Random.highBits).ncard = 2 ^ 53 ∧
      {k ∈ Set.range Random.highBits | (k : ℚ) < n.value * 2 ^ 53}.ncard =
        ⌈n.value * 2 ^ 53⌉₊ ∧
      {x : UInt64 | (Random.highBits x : ℚ) < n.value * 2 ^ 53}.ncard =
        2 ^ 11 * ⌈n.value * 2 ^ 53⌉₊ ∧
      (n.value = 1 → ∀ ctx s, (c.test ctx s).map Run.value = some true) ∧
      (n.value = 0 → ∀ ctx s, (c.test ctx s).map Run.value = some false) ∧
      ∀ spec' (c' : Condition G) n', random.build spec' = .ok c' →
        spec'.member? "value" = some (.number n') → n.value ≤ n'.value →
        ∀ ctx ctx' s s', (RandomSource.wide s.source).1 = (RandomSource.wide s'.source).1 →
          (c.test ctx s).map Run.value = some true →
          (c'.test ctx' s').map Run.value = some true := by
  refine ⟨exists_build_random_iff spec, fun c n hc hn => ?_⟩
  have htest := test_of_build_random hc hn
  have hle : n.value ≤ 1 := by
    obtain ⟨n', hn', -, hle⟩ := (exists_build_random_iff spec).1 ⟨c, hc⟩
    cases hn.symm.trans hn'
    exact hle
  refine ⟨htest, ?_, Random.ncard_draws hle, Random.ncard_outputs hle, fun hone ctx s => ?_,
    fun hzero ctx s => ?_, fun spec' c' n' hc' hn' hmono ctx ctx' s s' hsame hholds => ?_⟩
  · rw [Random.range_highBits, Set.ncard_coe_finset, Finset.card_range]
  · have hlt : (Random.highBits (RandomSource.wide s.source).1 : ℚ) < 2 ^ 53 := by
      exact_mod_cast Random.highBits_lt _
    rw [htest, hone, one_mul]
    exact congrArg some (decide_eq_true hlt)
  · have hge : ¬(Random.highBits (RandomSource.wide s.source).1 : ℚ) < 0 :=
      not_lt.2 (Nat.cast_nonneg _)
    rw [htest, hzero, zero_mul]
    exact congrArg some (decide_eq_false hge)
  · rw [htest] at hholds
    have hlt := of_decide_eq_true (Option.some_inj.1 hholds)
    rw [hsame] at hlt
    rw [test_of_build_random hc' hn']
    have hscaled : n.value * 2 ^ 53 ≤ n'.value * 2 ^ 53 := by linarith
    exact congrArg some (decide_eq_true (hlt.trans_le hscaled))

def chanceOf (n : Number) : Document := .object [("value", .number n)]

/-- The number nearest to a tenth, which is a little greater. -/
def tenth : Number := .real ((Binary64.nearest? false 1 10).getD .zero)

/-- The greatest output with which a tenth holds and the least with which it does not. -/
theorem random_exact_tenth :
    ∃ c certain hopeless : Condition Generator, random.build (chanceOf tenth) = .ok c ∧
      random.build (chanceOf (.percent 1)) = .ok certain ∧
      random.build (chanceOf .negativeZero) = .ok hopeless ∧
      (c.test .empty (.fresh (.stepping 1844674407370956799 0))).map Run.value = some true ∧
      (c.test .empty (.fresh (.stepping 1844674407370956800 0))).map Run.value = some false ∧
      {x : UInt64 | (Random.highBits x : ℚ) < tenth.value * 2 ^ 53}.ncard =
        2 ^ 11 * 900719925474100 ∧
      (certain.test .empty (.fresh (.stepping 18446744073709551615 0))).map Run.value = some true ∧
      (certain.test .empty (.fresh (.stepping 1844674407370956799 0))).map Run.value = some true ∧
      (hopeless.test .empty (.fresh (.stepping 0 0))).map Run.value = some false := by
  have hzero : Number.negativeZero.value = 0 := by decide +kernel
  have hone : (Number.percent 1).value = 1 := by decide +kernel
  have hceil : ⌈tenth.value * 2 ^ 53⌉₊ = 900719925474100 := by decide +kernel
  obtain ⟨⟨c, hc⟩, hall⟩ := (random_exact (G := Generator) (chanceOf tenth)).imp_left
    fun h => h.2 ⟨tenth, rfl, by decide +kernel, by decide +kernel⟩
  obtain ⟨⟨certain, hcertain⟩, hallCertain⟩ :=
    (random_exact (G := Generator) (chanceOf (.percent 1))).imp_left
      fun h => h.2 ⟨_, rfl, by rw [hone]; norm_num, hone.le⟩
  obtain ⟨⟨hopeless, hhopeless⟩, hallHopeless⟩ :=
    (random_exact (G := Generator) (chanceOf .negativeZero)).imp_left
      fun h => h.2 ⟨_, rfl, hzero.ge, by rw [hzero]; norm_num⟩
  obtain ⟨htest, -, -, hcount, -, -, hmono⟩ := hall c tenth hc rfl
  obtain ⟨-, -, -, -, halways, -⟩ := hallCertain certain _ hcertain rfl
  obtain ⟨-, -, -, -, -, hnone, -⟩ := hallHopeless hopeless _ hhopeless rfl
  have hlast : (c.test .empty (.fresh (.stepping 1844674407370956799 0))).map Run.value =
      some true := by
    rw [htest]
    decide +kernel
  refine ⟨c, certain, hopeless, hc, hcertain, hhopeless, hlast, ?_, ?_, halways hone _ _, ?_,
    hnone hzero _ _⟩
  · rw [htest]
    decide +kernel
  · rw [hcount, hceil]
  · exact hmono _ certain _ hcertain rfl (by rw [hone]; decide +kernel) _ _ _ _ rfl hlast

end Kind

end Rollout
