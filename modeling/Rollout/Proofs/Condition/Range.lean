import Rollout.Condition.Registry
import Rollout.Proofs.Condition.Test
import Rollout.Proofs.Condition.Username

/-! # Ranges without rounding

The numbers of a range and the bucket that is held against it are rounded to binary64 before they
are compared. What is rounded lies far outside the percents on its own side, so a range is accepted,
and a bucket lies in it, exactly as if nothing had been rounded. -/
namespace Rollout
set_option autoImplicit false

/-! ## Accepted ranges -/

/-- The fields `from` and `to` hold these numbers. -/
structure Document.WritesRange (spec : Document) (lower upper : Number) : Prop where
  lower : spec.member? "from" = some (.number lower)
  upper : spec.member? "to" = some (.number upper)

/-- Two numbers with a range of percents between them, compared as the rationals that they are. -/
structure Number.Delimits (lower upper : Number) : Prop where
  nonneg : 0 ≤ lower.value
  lt : lower.value < upper.value
  le : upper.value ≤ 100

theorem Field.exists_percentRange_iff (spec : Document) (tag : String) :
    (∃ r, percentRange spec tag = .ok r) ↔
      ∃ lower upper, spec.WritesRange lower upper ∧ lower.Delimits upper := by
  constructor
  · rintro ⟨r, h⟩
    obtain ⟨lower, upper, hlower, hupper, -, -⟩ := percentRange_eq_ok_iff.1 h
    obtain ⟨hfrom, hto⟩ := values_of_percentRange h hlower hupper
    have hnonneg := r.lower_value_nonneg
    have hlt := r.lower_value_lt
    have hle := r.upper_value_le
    rw [hfrom] at hnonneg hlt
    rw [hto] at hlt hle
    exact ⟨lower, upper, ⟨hlower, hupper⟩, ⟨hnonneg, hlt, hle⟩⟩
  · rintro ⟨lower, upper, ⟨hlower, hupper⟩, ⟨hnonneg, hlt, hle⟩⟩
    have hfrom := Number.value_toBinary64_of_mem hnonneg (hlt.le.trans hle)
    have hto := Number.value_toBinary64_of_mem (hnonneg.trans hlt.le) hle
    have hnonneg' : 0 ≤ lower.toBinary64.units := Binary64.units_nonneg_iff.2 (hfrom ▸ hnonneg)
    have hle' : upper.toBinary64.units ≤ Binary64.unitsOf 100 :=
      Binary64.units_le_unitsOf_iff.2 (by rw [hto]; exact_mod_cast hle)
    have hlt' : lower.toBinary64 < upper.toBinary64 := by
      rwa [Binary64.lt_iff_value_lt, hfrom, hto]
    exact ⟨⟨_, _, hnonneg', hle', hlt'⟩,
      percentRange_eq_ok_iff.2 ⟨lower, upper, hlower, hupper, rfl, rfl⟩⟩

/-! ## Buckets in a range -/

variable {G : Type}

namespace Condition

theorem contains_sharedNumber (range : PercentRange) (b : Fin 100) :
    range.contains (sharedNumber b) = true ↔ (b.val : ℚ) ∈ range.interval := by
  rw [PercentRange.contains_iff, value_sharedNumber]

end Condition

namespace Kind

/-- A kind of ranges builds its conditions of what the fields `from` and `to` give. -/
def OfRange (k : Kind G) (make : PercentRange → Condition G) : Prop :=
  ∀ spec, k.build spec = (Field.percentRange spec k.tag).map make

theorem OfRange.exists_build_iff {k : Kind G} {make : PercentRange → Condition G}
    (h : k.OfRange make) {spec : Document} : (∃ c, k.build spec = .ok c) ↔
      ∃ lower upper, spec.WritesRange lower upper ∧ lower.Delimits upper := by
  rw [h spec, Fault.exists_map_eq_ok_iff, Field.exists_percentRange_iff]

theorem OfRange.exists_range {k : Kind G} {make : PercentRange → Condition G} (h : k.OfRange make)
    {spec : Document} {c : Condition G} (hc : k.build spec = .ok c) {lower upper : Number}
    (hwrites : spec.WritesRange lower upper) :
    ∃ range, c = make range ∧ range.interval = Set.Ico lower.value upper.value := by
  rw [h spec] at hc
  obtain ⟨range, hrange, rfl⟩ := Fault.map_eq_ok_iff.1 hc
  exact ⟨range, rfl, Field.interval_of_percentRange hrange hwrites.lower hwrites.upper⟩

theorem randomMod_ofRange : (randomMod : Kind G).OfRange .randomMod := fun _ => rfl

theorem usernameMod_ofRange : (usernameMod : Kind G).OfRange .usernameMod := fun _ => rfl

/-- Conditions on a bucket are accepted exactly with two numbers that have a range of percents between
them, and hold exactly for the buckets in it, the shared one or that of the user's name, whatever
number of 64 bits the hash of the context makes of the name. All of this is meant of the numbers as
they are written. -/
theorem ranges_exact [RandomSource G] (spec : Document) :
    (∀ k ∈ [randomMod, usernameMod], (∃ c : Condition G, k.build spec = .ok c) ↔
      ∃ lower upper, spec.WritesRange lower upper ∧ lower.Delimits upper) ∧
    ∀ lower upper, spec.WritesRange lower upper →
      (∀ c : Condition G, randomMod.build spec = .ok c → ∀ ctx s,
        c.test ctx s = (Trial.bucket s).map (Run.map fun b =>
          decide (lower.value ≤ b.val ∧ (b.val : ℚ) < upper.value))) ∧
      ∀ c : Condition G, usernameMod.build spec = .ok c → ∀ ctx s name,
        ctx.username = some name → name ≠ "" →
        c.test ctx s = some ⟨decide (lower.value ≤ (ctx.bucket name).toInt ∧
          ((ctx.bucket name).toInt : ℚ) < upper.value), s, []⟩ := by
  refine ⟨fun k hk => ?_, fun lower upper hwrites => ⟨fun c hc ctx s => ?_,
    fun c hc ctx s name husername hname => ?_⟩⟩
  · simp only [List.mem_cons, List.not_mem_nil, or_false] at hk
    rcases hk with rfl | rfl
    · exact randomMod_ofRange.exists_build_iff
    · exact usernameMod_ofRange.exists_build_iff
  · obtain ⟨range, rfl, hinterval⟩ := randomMod_ofRange.exists_range hc hwrites
    have hholds : ∀ b : Fin 100, range.contains (Condition.sharedNumber b) =
        decide (lower.value ≤ b.val ∧ (b.val : ℚ) < upper.value) := by
      intro b
      rw [Bool.eq_iff_iff, Condition.contains_sharedNumber, hinterval, decide_eq_true_iff]
      rfl
    simp only [Condition.test, hholds]
  · obtain ⟨range, rfl, hinterval⟩ := usernameMod_ofRange.exists_range hc hwrites
    have hholds : Condition.inRange range ctx = decide (lower.value ≤ (ctx.bucket name).toInt ∧
        ((ctx.bucket name).toInt : ℚ) < upper.value) := by
      rw [Condition.inRange_of_username husername hname, Bool.eq_iff_iff,
        Condition.contains_bucketNumber, hinterval, decide_eq_true_iff]
      rfl
    rw [Condition.test, hholds]
    rfl

/-- From a zero with a sign to a number with a fraction. -/
def halfRange : Document := .object [("from", .number .negativeZero),
  ("to", .number (.real (Binary64.ofRatio 99 2 (by decide))))]

/-- A user whose name is hashed to this number. -/
def hashedTo (b : Int64) : Context := ⟨some "ada", none, none, some fun _ => b⟩

/-- `2 ^ 53 + 1` is no binary64 number, and is rounded when it is held against the range. -/
theorem ranges_exact_half :
    (∃ c : Condition Generator, randomMod.build halfRange = .ok c ∧
      c.test Context.empty ((Scope.fresh (.seeded 1)).withBucket 149) =
        some ⟨true, (Scope.fresh (.seeded 1)).withBucket 149, []⟩) ∧
    ∃ c : Condition Generator, usernameMod.build halfRange = .ok c ∧
      c.test (hashedTo 49) (.fresh (.seeded 1)) = some ⟨true, .fresh (.seeded 1), []⟩ ∧
      c.test (hashedTo 50) (.fresh (.seeded 1)) = some ⟨false, .fresh (.seeded 1), []⟩ ∧
      c.test (hashedTo (-1)) (.fresh (.seeded 1)) = some ⟨false, .fresh (.seeded 1), []⟩ ∧
      c.test (hashedTo 9007199254740993) (.fresh (.seeded 1)) =
        some ⟨false, .fresh (.seeded 1), []⟩ := by
  obtain ⟨haccepted, htests⟩ := ranges_exact (G := Generator) halfRange
  obtain ⟨hshared, hnamed⟩ := htests _ _ ⟨rfl, rfl⟩
  have hexists : ∃ lower upper, halfRange.WritesRange lower upper ∧ lower.Delimits upper :=
    ⟨_, _, ⟨rfl, rfl⟩, ⟨by decide +kernel, by decide +kernel, by decide +kernel⟩⟩
  obtain ⟨c, hc⟩ := (haccepted randomMod (by simp)).2 hexists
  obtain ⟨d, hd⟩ := (haccepted usernameMod (by simp)).2 hexists
  refine ⟨⟨c, hc, ?_⟩, d, hd, ?_, ?_, ?_, ?_⟩
  · rw [hshared c hc, Trial.bucket_of_some rfl]
    refine congrArg (fun holds => some (Run.mk holds _ [])) ?_
    decide +kernel
  all_goals
    rw [hnamed d hd _ _ "ada" rfl (by decide)]
    refine congrArg (fun holds => some (Run.mk holds _ [])) ?_
    decide +kernel

end Kind

end Rollout
