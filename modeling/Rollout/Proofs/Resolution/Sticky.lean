import Rollout.Proofs.Condition.Username
import Rollout.Proofs.Resolution.Exclusive
import Rollout.Proofs.Resolution.OptedIn

/-! # Ranges of names

The bucket of a name is a percent, so the entries that divide the percents among themselves by it
take each user into exactly one of them, the same one in every resolution, and a user without a name
into none. -/
namespace Rollout
set_option autoImplicit false

variable {G : Type} [RandomSource G]

/-! ## Tests of a name -/

namespace Condition

theorem test_usernameMod (range : PercentRange) (ctx : Context) (s : Scope G) :
    (usernameMod range).test ctx s = some ⟨inRange range ctx, s, []⟩ := rfl

theorem IsBuiltin.test_of_isOf {c : Condition G} (hc : c.IsBuiltin) (htag : c.tag = "USERNAME_MOD")
    {name : String} (hname : name ≠ "") :
    ∃ holds, ∀ ctx s, ctx.IsOf name → c.test ctx s = some ⟨holds, s, []⟩ := by
  cases c with
  | usernameMod range =>
    refine ⟨range.contains (bucketNumber (Bucket.ofName name)), fun ctx s hctx => ?_⟩
    rw [test_usernameMod, inRange_of_isOf hname hctx]
  | custom tag ask => cases hc
  | _ => simp [tag] at htag

end Condition

/-! ## Draws that come -/

/-- The shared bucket is there, or it comes from every source. -/
def Scope.HasBucket (s : Scope G) : Prop :=
  s.bucket.isSome ∨ ∀ g : G, (Random.drawBucket s.tries g).isSome

namespace Condition

theorem IsBuiltin.test_isSome_of_hasBucket {c : Condition G} (hc : c.IsBuiltin) (ctx : Context)
    {s : Scope G} (hs : s.HasBucket) : (c.test ctx s).isSome := by
  cases c with
  | randomMod range =>
    show ((Trial.bucket s).map _).isSome
    rw [Option.isSome_map]
    cases hb : s.bucket with
    | some b =>
      rw [Trial.bucket_of_some hb]
      rfl
    | none =>
      rw [Trial.bucket_of_none hb, Option.isSome_map]
      rcases hs with hs | hs
      · simp [hb] at hs
      · exact hs s.source
  | custom tag ask => cases hc
  | _ => exact hc.test_isSome (by simp [tag]) ctx s

theorem test_keeps_hasBucket {c : Condition G} (hc : c.IsBuiltin) {ctx : Context} {s : Scope G}
    {r : Run G Bool} (h : c.test ctx s = some r) (hs : s.HasBucket) : r.scope.HasBucket := by
  obtain heq | ⟨chance, -, heq⟩ | ⟨range, t, -, ht, heq⟩ | ⟨variation, service, -, -, heq⟩ |
    ⟨tag, ask, t, rfl, -, -⟩ := scope_of_test h
  · rw [heq]
    exact hs
  · rw [heq]
    exact hs
  · left
    rw [heq, (Trial.bucket_spec ht).1]
    rfl
  · rw [heq]
    exact hs
  · cases hc

end Condition

/-! ## Division of the percents -/

/-- The entry at this place looks whether the bucket of the name lies from `lower` to `upper`, and
the URL does not force it on. -/
def Resolution.AsksName (r : Resolution) (entries : List Document) (i : ℕ) (lower upper : Number) :
    Prop :=
  ∃ entry o, entries[i]? = some entry ∧ entry.HasOneRange "USERNAME_MOD" lower upper ∧
    r.outcomes[i]? = some o ∧ o.activation ≠ .forced

/-- Exactly one is active of any entries that divide the percents among themselves. -/
def Resolution.TakesOne (r : Resolution) (entries : List Document) : Prop :=
  ∀ (n : ℕ) (cut : ℕ → Number) (place : ℕ → ℕ), Cuts n cut →
    (∀ i < n, r.AsksName entries (place i) (cut i) (cut (i + 1))) →
    ∃! i, i < n ∧ r.ActiveAt (place i)

/-- No entry is active that asks for the bucket of the name. -/
def Resolution.TakesNobody (r : Resolution) (entries : List Document) : Prop :=
  ∀ i lower upper, r.AsksName entries i lower upper → ¬r.ActiveAt i

section Resolutions

variable {e : Engine G} {entries : List Document} {vs : List (Variant G)}
  (h : e.parse (.list entries) = .ok vs) (hkinds : e.registry.OfBuiltinKinds (.list entries))
include h hkinds

theorem activeAt_iff_inRange {ctx : Context} {s : Scope G} {u : Run G (List Activation)}
    (hu : Variant.activations (e.requested ctx) ctx vs s = some u) {i : ℕ} {lower upper : Number}
    (hasks : (e.resolution ctx vs u.value).AsksName entries i lower upper) :
    ∃ range : PercentRange, range.interval = Set.Ico lower.value upper.value ∧
      ((e.resolution ctx vs u.value).ActiveAt i ↔ Condition.inRange range ctx = true) := by
  obtain ⟨entry, o, hentry, hrange, ho, hforced⟩ := hasks
  obtain ⟨v, -, hparse⟩ := Engine.exists_parse_of_getElem? h hentry
  have hmem : Kind.usernameMod ∈ (Registry.builtin : Registry G).kinds := by
    simp [Registry.kinds_builtin]
  obtain ⟨range, hconditions, hinterval⟩ := Variant.conditions_of_hasOneRange hkinds
    (List.mem_of_getElem? hentry) hrange hmem rfl (fun _ => rfl) hparse
  obtain ⟨s', r, hr, -, hactive⟩ := activeAt_iff_test h hu hentry ho hforced hparse hconditions
  rw [Condition.test_usernameMod] at hr
  cases hr
  exact ⟨range, hinterval, hactive⟩

theorem resolveIn_takes_one {ctx : Context} {s : Scope G} {name : String} (hname : name ≠ "")
    (hctx : ctx.IsOf name) {run : Run G (Except ConfigError Resolution)}
    (hrun : e.resolveIn (.list entries) ctx s = some run) :
    ∃ r, run.value = .ok r ∧ r.TakesOne entries := by
  obtain ⟨u, hu, rfl⟩ := (Engine.resolveIn_eq_some_iff h).1 hrun
  refine ⟨_, rfl, fun n cut place hcuts hasks => ?_⟩
  have hactive : ∀ i < n, ((e.resolution ctx vs u.value).ActiveAt (place i) ↔
      ((Bucket.ofName name).toInt : ℚ) ∈ Set.Ico (cut i).value (cut (i + 1)).value) := by
    intro i hi
    obtain ⟨range, hinterval, hiff⟩ := activeAt_iff_inRange h hkinds hu (hasks i hi)
    rw [hiff, Condition.inRange_of_isOf hname hctx, Condition.contains_bucketNumber,
      hinterval]
  have hpercent := Bucket.ofName_percent name
  have hlower : (0 : ℚ) ≤ (Bucket.ofName name).toInt := by exact_mod_cast hpercent.1
  have hupper : ((Bucket.ofName name).toInt : ℚ) < 100 := by exact_mod_cast hpercent.2
  obtain ⟨i, ⟨hi, hin⟩, honly⟩ := hcuts.existsUnique hlower hupper
  refine ⟨i, ⟨hi, (hactive i hi).2 hin⟩, ?_⟩
  rintro j ⟨hj, hactivej⟩
  exact honly j ⟨hj, (hactive j hj).1 hactivej⟩

theorem resolveIn_takes_nobody {ctx : Context} {s : Scope G}
    (hctx : ctx.username = none ∨ ctx.username = some "")
    {run : Run G (Except ConfigError Resolution)}
    (hrun : e.resolveIn (.list entries) ctx s = some run) :
    ∃ r, run.value = .ok r ∧ r.TakesNobody entries := by
  obtain ⟨u, hu, rfl⟩ := (Engine.resolveIn_eq_some_iff h).1 hrun
  refine ⟨_, rfl, fun i lower upper hasks hactive => ?_⟩
  obtain ⟨range, -, hiff⟩ := activeAt_iff_inRange h hkinds hu hasks
  have hin := hiff.1 hactive
  rw [Condition.inRange_of_nobody hctx] at hin
  cases hin

/-- A resolution returns if the shared bucket is not asked for, is there, or comes. -/
theorem resolveIn_isSome_of_hasBucket (ctx : Context) {s : Scope G}
    (hs : (Document.list entries).Uses "RANDOM_MOD" → s.HasBucket) :
    (e.resolveIn (.list entries) ctx s).isSome := by
  have hbuiltin := hkinds.isBuiltin h
  refine Engine.resolveIn_isSome h fun c hc s' hreach => ?_
  by_cases huses : (Document.list entries).Uses "RANDOM_MOD"
  · refine (hbuiltin c hc).test_isSome_of_hasBucket ctx (hreach.keeps ?_ (hs huses))
    exact fun c hc s r htest => Condition.test_keeps_hasBucket (hbuiltin c hc) htest
  · exact (hbuiltin c hc).test_isSome (hkinds.tag_ne h huses c hc) ctx s'

/-- Conditions on the bucket of a name answer every user alike in all contexts and scopes, hold on
if their range is widened, take each user who has a name into exactly one of the entries that divide
the percents, wherever these stand, and take nobody else. -/
theorem resolveIn_sticky :
    (∀ name ≠ "",
      (∀ c ∈ vs.flatMap Variant.conditions, c.tag = "USERNAME_MOD" →
        ∃ holds, ∀ ctx s, ctx.IsOf name → c.test ctx s = some ⟨holds, s, []⟩) ∧
      ∀ ctx s run, ctx.IsOf name → e.resolveIn (.list entries) ctx s = some run →
        ∃ r, run.value = .ok r ∧ r.TakesOne entries) ∧
    (∀ range wider : PercentRange, range.interval ⊆ wider.interval → ∀ ctx (s s' : Scope G),
      (Condition.usernameMod range).test ctx s = some ⟨true, s, []⟩ →
      (Condition.usernameMod wider).test ctx s' = some ⟨true, s', []⟩) ∧
    (∀ ctx s run, ctx.username = none ∨ ctx.username = some "" →
      e.resolveIn (.list entries) ctx s = some run →
      ∃ r, run.value = .ok r ∧ r.TakesNobody entries) ∧
    (∀ ctx s, ((Document.list entries).Uses "RANDOM_MOD" → s.HasBucket) →
      (e.resolveIn (.list entries) ctx s).isSome) := by
  refine ⟨fun name hname => ⟨?_, ?_⟩, ?_, ?_, ?_⟩
  · exact fun c hc htag => (hkinds.isBuiltin h c hc).test_of_isOf htag hname
  · exact fun ctx s run hctx hrun => resolveIn_takes_one h hkinds hname hctx hrun
  · intro range wider hsubset ctx s s' htest
    rw [Condition.test_usernameMod] at htest ⊢
    have hin : Condition.inRange range ctx = true := by
      injection htest with hrun
      injection hrun
    rw [Condition.inRange_mono hsubset hin]
  · exact fun ctx s run hctx hrun => resolveIn_takes_nobody h hkinds hctx hrun
  · exact fun ctx s hs => resolveIn_isSome_of_hasBucket h hkinds ctx hs

end Resolutions

/-! ## An example -/

def nameShare (id : String) (lower upper : Number) : Document := .object [("id", .text id),
  ("conditions", .list [.object [("type", .text "USERNAME_MOD"), ("from", .number lower),
    ("to", .number upper)]]), ("mods", .object [("page", .text id)])]

/-- Two shares of the users, and an entry between them that asks for the shared bucket. -/
def dividedUsers : List Document := [nameShare "old" (.percent 0) cut,
  share "sampled" (.percent 0) (.percent 50), nameShare "new" cut (.percent 100)]

/-- The hash of this name has wrapped below zero. -/
def zoeContext : Context := ⟨some "zoë.svensson", some ["staff"], none, none⟩

/-- The ends of the two shares. -/
def shareCuts : ℕ → Number
  | 0 => .percent 0
  | 1 => cut
  | _ => .percent 100

theorem shareCuts_cuts : Cuts 2 shareCuts where
  first := by decide +kernel
  last := by decide +kernel
  ascending := by decide +kernel

theorem asksName_dividedUsers {r : Resolution} {old sampled new : Activation}
    (hr : r.outcomes = [⟨"old", old⟩, ⟨"sampled", sampled⟩, ⟨"new", new⟩]) (hold : old ≠ .forced)
    (hnew : new ≠ .forced) :
    ∀ i < 2, r.AsksName dividedUsers (2 * i) (shareCuts i) (shareCuts (i + 1))
  | 0, _ => ⟨_, ⟨"old", old⟩, rfl, ⟨_, rfl, rfl, rfl, rfl⟩, by rw [hr]; rfl, hold⟩
  | 1, _ => ⟨_, ⟨"new", new⟩, rfl, ⟨_, rfl, rfl, rfl, rfl⟩, by rw [hr]; rfl, hnew⟩

def upToSeventy : PercentRange :=
  ⟨(Number.percent 0).toBinary64, (Number.percent 70).toBinary64, by decide +kernel,
    by decide +kernel, by decide +kernel⟩

def allPercents : PercentRange :=
  ⟨(Number.percent 0).toBinary64, (Number.percent 100).toBinary64, by decide +kernel,
    by decide +kernel, by decide +kernel⟩

theorem resolveIn_sticky_zoe :
    ∃ vs, (Engine.standard : Engine Generator).parse (.list dividedUsers) = .ok vs ∧
    (Engine.standard : Engine Generator).registry.OfBuiltinKinds (.list dividedUsers) ∧
    zoeContext.IsOf "zoë.svensson" ∧
    (∃ c ∈ vs.flatMap Variant.conditions, c.tag = "USERNAME_MOD" ∧
      ∃ holds, ∀ ctx s, ctx.IsOf "zoë.svensson" → c.test ctx s = some ⟨holds, s, []⟩) ∧
    (∃ run r, Engine.standard.resolveIn (.list dividedUsers) zoeContext seededScope = some run ∧
      run.value = .ok r ∧ ∃! i, i < 2 ∧ r.ActiveAt (2 * i)) ∧
    upToSeventy.interval ⊆ allPercents.interval ∧
    (Condition.usernameMod allPercents).test zoeContext seededScope =
      some ⟨true, seededScope, []⟩ ∧
    (∃ run r, Engine.standard.resolveIn (.list dividedUsers) Context.empty seededScope = some run ∧
      run.value = .ok r ∧ ¬r.ActiveAt 0) ∧
    (Engine.standard.resolveIn (.list dividedUsers) zoeContext
      (seededScope.withBucket 7)).isSome := by
  have hok : ((Engine.standard : Engine Generator).parse (.list dividedUsers)).isOk = true := by
    decide +kernel
  have htags : ((Engine.standard : Engine Generator).parse (.list dividedUsers)).toOption.map
      (fun vs => (vs.flatMap Variant.conditions).map Condition.tag) =
      some ["USERNAME_MOD", "RANDOM_MOD", "USERNAME_MOD"] := by
    decide +kernel
  have houtcomes : (Engine.standard.resolveIn (.list dividedUsers) zoeContext seededScope).map
      (fun run => run.value.toOption.map Resolution.outcomes) =
      some (some [⟨"old", .inactive⟩, ⟨"sampled", .conditions⟩, ⟨"new", .conditions⟩]) := by
    decide +kernel
  have hnobody : (Engine.standard.resolveIn (.list dividedUsers) Context.empty seededScope).map
      (fun run => run.value.toOption.map Resolution.outcomes) =
      some (some [⟨"old", .inactive⟩, ⟨"sampled", .conditions⟩, ⟨"new", .inactive⟩]) := by
    decide +kernel
  have hseventy : (Condition.usernameMod upToSeventy).test zoeContext seededScope =
      some ⟨true, seededScope, []⟩ := by
    have hin : Condition.inRange upToSeventy zoeContext = true := by decide +kernel
    rw [Condition.test_usernameMod, hin]
  obtain ⟨vs, h⟩ := Fault.exists_of_isOk hok
  have hkinds := Registry.ofBuiltinKinds_of_parseAll h
  obtain ⟨hnamed, hwidened, hempty, hreturns⟩ := resolveIn_sticky h hkinds
  obtain ⟨hsame, htakes⟩ := hnamed "zoë.svensson" (by decide)
  have hzoe : zoeContext.IsOf "zoë.svensson" := ⟨rfl, rfl⟩
  have hsubset : upToSeventy.interval ⊆ allPercents.interval :=
    Set.Ico_subset_Ico_right ((Binary64.le_iff_value_le _ _).1 (by decide +kernel))
  rw [h] at htags
  have hlist : (vs.flatMap Variant.conditions).map Condition.tag = _ := Option.some_inj.1 htags
  have hmem : "USERNAME_MOD" ∈ (vs.flatMap Variant.conditions).map Condition.tag := by
    rw [hlist]
    exact List.mem_cons_self
  obtain ⟨c, hc, htag⟩ := List.mem_map.1 hmem
  obtain ⟨run, hrun, hvalue⟩ := Option.map_eq_some_iff.1 houtcomes
  obtain ⟨r, hr, hone⟩ := htakes zoeContext seededScope run hzoe hrun
  rw [hr] at hvalue
  obtain ⟨run', hrun', hvalue'⟩ := Option.map_eq_some_iff.1 hnobody
  obtain ⟨r', hr', hnone⟩ := hempty Context.empty seededScope run' (.inl rfl) hrun'
  rw [hr'] at hvalue'
  refine ⟨vs, h, hkinds, hzoe, ⟨c, hc, htag, hsame c hc htag⟩, ⟨run, r, hrun, hr, ?_⟩, hsubset,
    hwidened _ _ hsubset _ _ _ hseventy,
    ⟨run', r', hrun', hr', ?_⟩, ?_⟩
  · exact hone 2 shareCuts (2 * ·) shareCuts_cuts
      (asksName_dividedUsers (Option.some_inj.1 hvalue) (by decide) (by decide))
  · exact hnone 0 _ _
      (asksName_dividedUsers (Option.some_inj.1 hvalue') (by decide) (by decide) 0 (by decide))
  · exact hreturns _ _ fun _ => .inl rfl

end Rollout
