import Rollout.Proofs.Condition.Respelled
import Rollout.Proofs.Resolution.Run

/-! # Configurations with their numbers in another form

Whether a number of a condition is written as an integer or as a binary64 number, or which zero it
is, makes no difference: the configuration fails with the same fault, or its entries are resolved in
the same way in every context and scope. -/
namespace Rollout
set_option autoImplicit false

/-! ## Configurations -/

namespace Document

/-- Lists whose items are related side by side. -/
inductive ItemsMatch (R : Document → Document → Prop) : Document → Document → Prop
  | same (d : Document) : ItemsMatch R d d
  | list {ds es : List Document} (h : List.Forall₂ R ds es) : ItemsMatch R (.list ds) (.list es)

theorem ItemsMatch.items? {R : Document → Document → Prop} {d e : Document} (hR : ∀ d, R d d)
    (h : ItemsMatch R d e) : Option.Rel (List.Forall₂ R) d.items? e.items? := by
  cases h with
  | same d => exact optionRel_refl (fun ds => List.forall₂_same.2 fun d _ => hR d) _
  | list h => exact .some h

/-- Of the parts of an entry the conditions are respelled and nothing else. -/
def RespellsPart (name : String) (d e : Document) : Prop :=
  if name = "conditions" then ItemsMatch RespellsCondition d e else d = e

def RespellsEntry : Document → Document → Prop := MembersMatch RespellsPart

theorem respellsPart_refl (name : String) (d : Document) : RespellsPart name d d := by
  unfold RespellsPart
  split
  · exact .same d
  · rfl

/-- The conditions of a configuration are respelled and nothing else. -/
def RespellsConfig : Document → Document → Prop := ItemsMatch RespellsEntry

variable {d e : Document}

theorem RespellsEntry.conditions (h : d.RespellsEntry e) : Option.Rel
    (ItemsMatch RespellsCondition) (d.member? "conditions") (e.member? "conditions") := by
  have hconditions := MembersMatch.member? respellsPart_refl h "conditions"
  unfold RespellsPart at hconditions
  simpa only [if_pos] using hconditions

theorem RespellsEntry.other (h : d.RespellsEntry e) (name : String) (hname : name ≠ "conditions") :
    d.member? name = e.member? name := by
  have hother := MembersMatch.member? respellsPart_refl h name
  unfold RespellsPart at hother
  simp only [if_neg hname] at hother
  exact eq_of_optionRel hother

end Document

/-! ## Reading -/

variable {G : Type} [RandomSource G]

theorem Registry.instantiate_respelled {r : Registry G} {spec spec' : Document}
    (hkinds : ∀ tag, spec.member? "type" = some (.text tag) → ∀ k, r.find? tag = some k →
      k ∈ (builtin : Registry G).kinds) (h : spec.RespellsCondition spec') :
    Fault.Matched Condition.TestsAs (r.instantiate spec) (r.instantiate spec') := by
  unfold instantiate
  rw [← h.type_eq]
  split
  · exact .error _
  · exact .error _
  · rename_i tag htag
    split
    · rename_i k hk
      exact k.build_respelled (hkinds tag htag k hk) h
    · exact .error _
  · exact .error _

namespace Variant

/-- The entries agree but for the forms of the numbers that their conditions were built from. -/
structure RunsAs (v w : Variant G) : Prop where
  id : v.id = w.id
  conditions : List.Forall₂ Condition.TestsAs v.conditions w.conditions
  mods : v.mods = w.mods
  forcible : v.forcible = w.forcible
  operator : v.operator = w.operator

theorem runsAs_refl (v : Variant G) : v.RunsAs v :=
  ⟨rfl, List.forall₂_same.2 fun c _ => c.testsAs_refl, rfl, rfl, rfl⟩

theorem specs_respelled {entry entry' : Document} (h : entry.RespellsEntry entry') (id : String) :
    Fault.Matched (List.Forall₂ Document.RespellsCondition)
      (specs id (entry.member? "conditions")) (specs id (entry'.member? "conditions")) := by
  have hitems := optionRel_bind h.conditions fun d e hde =>
    Document.ItemsMatch.items? Document.MembersMatch.same hde
  unfold specs
  revert hitems
  generalize (entry.member? "conditions").bind Document.items? = x
  generalize (entry'.member? "conditions").bind Document.items? = y
  rintro (⟨hds⟩ | _)
  · cases hds with
    | nil => exact .error _
    | cons hd hrest => exact .ok (.cons hd hrest)
  · exact .error _

theorem parse_respelled {r : Registry G} {entry entry' : Document}
    (hkinds : ∀ ds, entry.member? "conditions" = some (.list ds) → ∀ spec ∈ ds,
      ∀ tag, spec.member? "type" = some (.text tag) → ∀ k, r.find? tag = some k →
        k ∈ (Registry.builtin : Registry G).kinds) (h : entry.RespellsEntry entry') :
    Fault.Matched RunsAs (parse r entry) (parse r entry') := by
  have hid : parseId entry = parseId entry' := by
    rw [parseId, parseId, h.other "id" (by decide)]
  have hforcible : isForcible entry = isForcible entry' := by
    rw [isForcible, isForcible, h.other "allowUrlOverrides" (by decide)]
  -- Only the conditions are read from other documents, so the other readers are the same.
  unfold parse
  rw [← hid, ← hforcible, ← h.other "mods" (by decide),
    ← h.other "conditionalOperator" (by decide)]
  refine (Fault.Matched.same (parseId entry)).bind fun id _ _ heq => ?_
  subst heq
  refine (specs_respelled h id).bind fun ds es hds hspecs => ?_
  refine (Fault.Matched.same (parseMods id (entry.member? "mods"))).bind fun mods _ _ heq => ?_
  subst heq
  have hbuilt : Fault.Matched (List.Forall₂ Condition.TestsAs) (ds.mapM r.instantiate)
      (es.mapM r.instantiate) := .mapM hspecs fun spec hspec _ hde =>
    Registry.instantiate_respelled (hkinds ds (specs_eq_ok_iff.1 hds).1 spec hspec) hde
  refine hbuilt.bind fun cs bs _ hcs => ?_
  refine (Fault.Matched.same (Operator.parse (entry.member? "conditionalOperator"))).bind
    fun op _ _ heq => ?_
  subst heq
  exact .ok ⟨rfl, hcs, rfl, rfl, rfl⟩

theorem parseAll_respelled {r : Registry G} {config config' : Document}
    (hkinds : r.NoCustomKind config) (h : config.RespellsConfig config') :
    Fault.Matched (List.Forall₂ RunsAs) (parseAll r config) (parseAll r config') := by
  cases h with
  | same => exact .refl (fun vs => List.forall₂_same.2 fun v _ => v.runsAs_refl) _
  | @list entries entries' h =>
    refine .mapM h fun entry hentry entry' hrespells => ?_
    exact parse_respelled (fun ds hds spec hspec =>
      hkinds spec (Document.mem_conditionSpecs hentry hds hspec)) hrespells

end Variant

/-! ## Running -/

theorem Operator.evaluate_congr (op : Operator) {cs ds : List (Condition G)}
    (h : List.Forall₂ Condition.TestsAs cs ds) (ctx : Context) :
    op.evaluate ctx cs = op.evaluate ctx ds := by
  induction h with
  | nil => rfl
  | cons hcd _ ih => simp only [evaluate, hcd.tag, hcd.test, ih]

namespace Variant

theorem RunsAs.activation_eq {v w : Variant G} (h : v.RunsAs w) (requested : List String)
    (ctx : Context) : v.activation requested ctx = w.activation requested ctx := by
  have hforced : v.isForced requested = w.isForced requested := by
    rw [isForced, isForced, h.id, h.forcible]
  rw [activation, activation, hforced, h.operator,
    Operator.evaluate_congr w.operator h.conditions ctx]

theorem activations_congr {vs ws : List (Variant G)} (h : List.Forall₂ RunsAs vs ws)
    (requested : List String) (ctx : Context) :
    activations requested ctx vs = activations requested ctx ws := by
  induction h with
  | nil => rfl
  | cons hvw _ ih => simp only [activations, hvw.id, hvw.activation_eq, ih]

theorem mergedMods_congr {vs ws : List (Variant G)} (h : List.Forall₂ RunsAs vs ws)
    (as : List Activation) : mergedMods vs as = mergedMods ws as := by
  unfold mergedMods
  generalize Mods.empty = m
  induction h generalizing as m with
  | nil => rfl
  | cons hvw _ ih =>
    cases as with
    | nil => rfl
    | cons a as => simp only [List.zip_cons_cons, List.foldl_cons, hvw.mods, ih]

theorem outcomes_congr {vs ws : List (Variant G)} (h : List.Forall₂ RunsAs vs ws)
    (as : List Activation) : List.zipWith outcome vs as = List.zipWith outcome ws as := by
  induction h generalizing as with
  | nil => rfl
  | cons hvw _ ih =>
    cases as with
    | nil => rfl
    | cons a as => simp only [List.zipWith_cons_cons, outcome, hvw.id, ih]

end Variant

/-- The form of a number does not matter: a configuration whose numbers are written in other forms
fails with the same fault, or it is read into entries that run alike, and every resolution of it is
the same. -/
theorem resolveIn_respelled (e : Engine G) {config config' : Document}
    (hkinds : e.registry.NoCustomKind config) (h : config.RespellsConfig config') :
    (∀ fault, e.parse config' = .error fault ↔ e.parse config = .error fault) ∧
    (∀ vs, e.parse config = .ok vs →
      ∃ ws, e.parse config' = .ok ws ∧ List.Forall₂ Variant.RunsAs vs ws) ∧
    ∀ ctx s, e.resolveIn config' ctx s = e.resolveIn config ctx s := by
  have hmatched : Fault.Matched (List.Forall₂ Variant.RunsAs) (e.parse config) (e.parse config') :=
    Variant.parseAll_respelled hkinds h
  refine ⟨hmatched.eq_error_iff, fun vs hvs => hmatched.exists_of_ok hvs, fun ctx s => ?_⟩
  cases hparse : e.parse config with
  | error fault =>
    rw [Engine.resolveIn_of_error hparse,
      Engine.resolveIn_of_error ((hmatched.eq_error_iff fault).2 hparse)]
  | ok vs =>
    obtain ⟨ws, hws, hruns⟩ := hmatched.exists_of_ok hparse
    rw [Engine.resolveIn_eq_map hparse, Engine.resolveIn_eq_map hws,
      Variant.activations_congr hruns]
    simp only [Engine.resolution, Engine.allNotes, Variant.mergedMods_congr hruns,
      Variant.outcomes_congr hruns]

def rangeSpec (lower upper : Number) : Document :=
  .object [("type", .text "RANDOM_MOD"), ("from", .number lower), ("to", .number upper)]

def variationSpec (variation : Number) : Document :=
  .object [("type", .text "GOOGLE_EXPERIMENTS"), ("variation", .number variation)]

def entryOfSpecs (specs : List Document) : Document := .list [.object [("id", .text "page"),
  ("conditions", .list specs), ("mods", .object [("page", .text "newPage")])]]

def Number.twoTo53 : Number := .integer 9007199254740992 (by decide)

/-- A natural number as a binary64 number. -/
def Number.realOf (n : Nat) : Number := .real ((Binary64.nearest? false n 1).getD .zero)

def integerConfig : Document :=
  entryOfSpecs [rangeSpec (.percent 0) (.percent 20), variationSpec .twoTo53]

def realConfig : Document :=
  entryOfSpecs [rangeSpec .negativeZero (.realOf 20), variationSpec (.realOf 9007199254740992)]

theorem resolveIn_respelled_reals :
    (Engine.standard : Engine Generator).registry.NoCustomKind integerConfig ∧
    integerConfig.RespellsConfig realConfig ∧
    ∀ ctx s, (Engine.standard : Engine Generator).resolveIn realConfig ctx s =
      Engine.standard.resolveIn integerConfig ctx s := by
  have hkinds : (Engine.standard : Engine Generator).registry.NoCustomKind integerConfig :=
    Registry.noCustomKind_of_subset (List.Subset.refl _) integerConfig
  have hzero : (Number.percent 0).value = Number.negativeZero.value := by decide +kernel
  have htwenty : (Number.percent 20).value = (Number.realOf 20).value := by decide +kernel
  have htwoTo53 : Number.twoTo53.value = (Number.realOf 9007199254740992).value := by
    decide +kernel
  have hrange : (rangeSpec (.percent 0) (.percent 20)).RespellsCondition
      (rangeSpec .negativeZero (.realOf 20)) :=
    .object rfl (.cons rfl (.cons (.number hzero) (.cons (.number htwenty) .nil)))
  have hvariation : (variationSpec .twoTo53).RespellsCondition
      (variationSpec (.realOf 9007199254740992)) :=
    .object rfl (.cons rfl (.cons (.number htwoTo53) .nil))
  have hspecs := Document.ItemsMatch.list (.cons hrange (.cons hvariation .nil))
  have hconfig : integerConfig.RespellsConfig realConfig :=
    .list (.cons (.object rfl (.cons rfl (.cons hspecs (.cons rfl .nil)))) .nil)
  exact ⟨hkinds, hconfig, (resolveIn_respelled Engine.standard hkinds hconfig).2.2⟩

end Rollout
