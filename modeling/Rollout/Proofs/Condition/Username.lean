import Rollout.Proofs.Condition.Percent

/-! # Users by their names

The bucket of a name is one of the hundred percents, whatever the name is: the hash wraps at 32 bits
and may be negative, and the remainder brings it back. A test of the name's bucket therefore rests on
the name alone, and it holds where the percent lies in the range. -/
namespace Rollout
set_option autoImplicit false

/-! ## The bucket of a name -/

namespace Bucket

theorem toInt_ofName (name : String) : (ofName name).toInt = (hash name).toInt % count := by
  have hlower : 0 ≤ (hash name).toInt % count := Int.emod_nonneg _ (by decide)
  have hupper : (hash name).toInt % count < 100 := Int.emod_lt_of_pos _ (by decide)
  exact Int64.toInt_ofInt_of_le (by omega) (by omega)

theorem ofName_percent (name : String) :
    0 ≤ (ofName name).toInt ∧ (ofName name).toInt < 100 := by
  rw [toInt_ofName]
  exact ⟨Int.emod_nonneg _ (by decide), Int.emod_lt_of_pos _ (by decide)⟩

end Bucket

/-! ## Tests -/

/-- The context is of the user with this name, and hashes names as everybody does. -/
structure Context.IsOf (ctx : Context) (name : String) : Prop where
  username : ctx.username = some name
  hash : ctx.hash = none

theorem Context.user?_of_nobody {ctx : Context}
    (h : ctx.username = none ∨ ctx.username = some "") : ctx.user? = none := by
  rcases h with h | h
  · rw [user?, h]
    rfl
  · rw [user?, h]
    rfl

namespace Condition

/-- The user has a name, so the range is asked for the bucket of it, by whichever hash. -/
theorem inRange_of_username {ctx : Context} {name : String} (h : ctx.username = some name)
    (hname : name ≠ "") (range : PercentRange) :
    inRange range ctx = range.contains (bucketNumber (ctx.bucket name)) := by
  have huser : ctx.user? = some name := by
    rw [Context.user?, h]
    simp [Context.present, hname]
  simp only [inRange, huser]

/-- Of the context only the name counts. -/
theorem inRange_of_isOf {ctx : Context} {name : String} (hname : name ≠ "") (h : ctx.IsOf name)
    (range : PercentRange) :
    inRange range ctx = range.contains (bucketNumber (Bucket.ofName name)) := by
  have hbucket : ctx.bucket name = Bucket.ofName name := by
    rw [Context.bucket, h.hash]
  rw [inRange_of_username h.username hname, hbucket]

theorem inRange_mono {range wider : PercentRange} (h : range.interval ⊆ wider.interval)
    {ctx : Context} (hin : inRange range ctx = true) : inRange wider ctx = true := by
  unfold inRange at hin ⊢
  cases huser : ctx.user? with
  | none =>
    rw [huser] at hin
    cases hin
  | some name =>
    rw [huser] at hin
    exact (wider.contains_iff _).2 (h ((range.contains_iff _).1 hin))

/-- A user without a name lies in no range. -/
theorem inRange_of_nobody {ctx : Context} (h : ctx.username = none ∨ ctx.username = some "")
    (range : PercentRange) : inRange range ctx = false := by
  simp only [inRange, Context.user?_of_nobody h]

end Condition

/-! ## Cut points -/

/-- Points that cut the percents into `n` ranges one beside the other. -/
structure Cuts (n : ℕ) (cut : ℕ → Number) : Prop where
  first : (cut 0).value = 0
  last : (cut n).value = 100
  ascending : ∀ i < n, (cut i).value < (cut (i + 1)).value

theorem exists_range_of_ascending {c : ℕ → ℚ} {n : ℕ} {x : ℚ} (h0 : c 0 ≤ x) (hn : x < c n) :
    ∃ i < n, x ∈ Set.Ico (c i) (c (i + 1)) := by
  induction n with
  | zero => exact absurd hn (not_lt.2 h0)
  | succ n ih =>
    rcases lt_or_ge x (c n) with hlt | hge
    · obtain ⟨i, hi, hmem⟩ := ih hlt
      exact ⟨i, by omega, hmem⟩
    · exact ⟨n, by omega, hge, hn⟩

theorem le_of_ascending {c : ℕ → ℚ} {n : ℕ} (h : ∀ i < n, c i < c (i + 1)) {i j : ℕ} (hij : i ≤ j)
    (hj : j ≤ n) : c i ≤ c j := by
  induction j, hij using Nat.le_induction with
  | base => exact le_refl _
  | succ j _ ih => exact (ih (by omega)).trans (h j (by omega)).le

/-- A percent lies in exactly one of the ranges between cut points. -/
theorem Cuts.existsUnique {n : ℕ} {cut : ℕ → Number} (h : Cuts n cut) {x : ℚ} (h0 : 0 ≤ x)
    (h100 : x < 100) : ∃! i, i < n ∧ x ∈ Set.Ico (cut i).value (cut (i + 1)).value := by
  have hrange := exists_range_of_ascending (c := fun i => (cut i).value) (h.first.trans_le h0)
    (h100.trans_eq h.last.symm)
  obtain ⟨i, hi, hmem⟩ := hrange
  refine ⟨i, ⟨hi, hmem⟩, ?_⟩
  rintro j ⟨hj, hmem'⟩
  -- Of two different ranges one ends before the other begins.
  rcases lt_trichotomy j i with hlt | heq | hgt
  · have hle := le_of_ascending h.ascending (i := j + 1) (j := i) (by omega) (by omega)
    exact absurd (hmem'.2.trans_le hle) (not_lt.2 hmem.1)
  · exact heq
  · have hle := le_of_ascending h.ascending (i := i + 1) (j := j) (by omega) (by omega)
    exact absurd (hmem.2.trans_le hle) (not_lt.2 hmem'.1)

end Rollout
