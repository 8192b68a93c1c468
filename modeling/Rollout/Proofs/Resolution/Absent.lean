import Rollout.Proofs.Condition.Username
import Rollout.Proofs.Resolution.OptedIn

/-! # Empty values are absent values

A user without a name, a list of no groups and a query string without a character count as none.
Whether a context has them or leaves them out, every resolution is the same. -/
namespace Rollout
set_option autoImplicit false

/-! ## Contexts -/

/-- The values are the same, or an empty one has been left out. -/
def Dropped {α : Type} (empty : α) (x y : Option α) : Prop := y = x ∨ x = some empty ∧ y = none

namespace Context

/-- The contexts differ only in empty values that the second one leaves out. -/
structure DropsEmpty (ctx ctx' : Context) : Prop where
  username : Dropped "" ctx.username ctx'.username
  groups : Dropped [] ctx.groups ctx'.groups
  search : Dropped "" ctx.search ctx'.search
  hash : ctx'.hash = ctx.hash

theorem present_of_dropped {x y : Option String} (h : Dropped "" x y) : present y = present x := by
  rcases h with rfl | ⟨rfl, rfl⟩
  · rfl
  · rfl

namespace DropsEmpty

variable {ctx ctx' : Context} (h : ctx.DropsEmpty ctx')
include h

theorem user?_eq : ctx'.user? = ctx.user? := present_of_dropped h.username

theorem query?_eq : ctx'.query? = ctx.query? := present_of_dropped h.search

theorem memberships_eq : ctx'.memberships = ctx.memberships := by
  unfold memberships
  rcases h.groups with heq | ⟨hempty, hnone⟩
  · rw [heq]
  · rw [hempty, hnone]
    rfl

theorem bucket_eq : ctx'.bucket = ctx.bucket := by
  funext name
  rw [bucket, bucket, h.hash]

end DropsEmpty

end Context

/-! ## Resolutions -/

variable {G : Type}

theorem Engine.requested_of_empty (e : Engine G) {ctx : Context} (h : ctx.search = some "") :
    e.requested ctx = Url.requested e.location := by
  have hquery : ctx.query? = none := by
    rw [Context.query?, h]
    rfl
  rw [requested, hquery]

variable [RandomSource G]

/-- Conditions on the user do not hold for one without a name, whatever they list, whatever their
range is and whichever hash is used. -/
theorem Condition.test_of_empty {ctx : Context} (h : ctx.username = some "") {spec : Document}
    {c : Condition G} (hc : Kind.users.build spec = .ok c ∨ Kind.usernameMod.build spec = .ok c)
    (s : Scope G) : c.test ctx s = some ⟨false, s, []⟩ := by
  rcases hc with hc | hc
  · obtain ⟨names, -, rfl⟩ := Fault.map_eq_ok_iff.1 hc
    simp only [test, Context.user?_of_nobody (.inr h)]
    rfl
  · obtain ⟨range, -, rfl⟩ := Fault.map_eq_ok_iff.1 hc
    simp only [test, inRange_of_nobody (.inr h)]
    rfl

/-- Leaving out an empty name, an empty list of groups or an empty query string changes nothing: the
resolution or the fault is the same and so is the scope that is left. An empty query string gives
way to the location's, and no condition on the user holds for an empty name. -/
theorem resolveIn_drops_empty (e : Engine G) {config : Document}
    (hkinds : e.registry.NoCustomKind config) {ctx ctx' : Context} (h : ctx.DropsEmpty ctx') :
    (∀ s, e.resolveIn config ctx' s = e.resolveIn config ctx s) ∧
    (ctx.search = some "" → e.requested ctx = Url.requested e.location) ∧
    (ctx.username = some "" → ∀ spec (c : Condition G),
      Kind.users.build spec = .ok c ∨ Kind.usernameMod.build spec = .ok c →
      ∀ hash s, c.test { ctx with hash := hash } s = some ⟨false, s, []⟩) := by
  refine ⟨fun s => ?_, e.requested_of_empty, fun hname spec c hc hash s => ?_⟩
  · cases hparse : e.parse config with
    | error fault => rw [Engine.resolveIn_of_error hparse, Engine.resolveIn_of_error hparse]
    | ok vs =>
      have htest : ∀ c ∈ vs.flatMap Variant.conditions, c.test ctx' = c.test ctx := fun c hc =>
        ((hkinds.ofBuiltinKinds hparse).isBuiltin hparse c hc).test_congr h.user?_eq
          h.memberships_eq h.bucket_eq
      have hrequested : e.requested ctx' = e.requested ctx := by
        rw [Engine.requested, Engine.requested, h.query?_eq]
      exact resolveIn_eq_of_test_eq hparse htest hrequested s
  · have hempty : ({ ctx with hash := hash } : Context).username = some "" := hname
    exact Condition.test_of_empty hempty hc s

def namelessUsers : Document := .object [("type", .text "USERS"), ("values", .list [.text ""])]

def anyPercent : Document := .object [("type", .text "USERNAME_MOD"),
  ("from", .number (.percent 0)), ("to", .number (.percent 100))]

/-- An entry for users with an empty name or in any percent. -/
def namelessConfig : Document := .list [.object [("id", .text "page"),
  ("allowUrlOverrides", .boolean true), ("conditions", .list [namelessUsers, anyPercent]),
  ("mods", .object [("page", .text "newPage")])]]

/-- Every value is there and empty, and every name has the same bucket. -/
def emptyValues : Context := ⟨some "", some [], some "", some fun _ => 42⟩

/-- The standard engine at a location whose query lists an id. -/
def engineAtPage : Engine Generator := { Engine.standard with location := some "?variants=page" }

theorem resolveIn_drops_empty_nameless :
    engineAtPage.registry.NoCustomKind namelessConfig ∧
    emptyValues.DropsEmpty { Context.empty with hash := emptyValues.hash } ∧
    (∀ s, engineAtPage.resolveIn namelessConfig { Context.empty with hash := emptyValues.hash } s =
      engineAtPage.resolveIn namelessConfig emptyValues s) ∧
    engineAtPage.requested emptyValues = ["page"] ∧
    ∃ c d : Condition Generator, Kind.users.build namelessUsers = .ok c ∧
      Kind.usernameMod.build anyPercent = .ok d ∧
      ∀ s, c.test emptyValues s = some ⟨false, s, []⟩ ∧
        d.test emptyValues s = some ⟨false, s, []⟩ := by
  have hkinds : engineAtPage.registry.NoCustomKind namelessConfig :=
    Registry.noCustomKind_of_subset (List.Subset.refl _) namelessConfig
  have hdrops : emptyValues.DropsEmpty { Context.empty with hash := emptyValues.hash } :=
    ⟨.inr ⟨rfl, rfl⟩, .inr ⟨rfl, rfl⟩, .inr ⟨rfl, rfl⟩, rfl⟩
  obtain ⟨hsame, hlocation, hnobody⟩ := resolveIn_drops_empty engineAtPage hkinds hdrops
  have hpage : Url.requested engineAtPage.location = ["page"] := by decide +kernel
  have husers : (Kind.users.build namelessUsers : Except _ (Condition Generator)).isOk = true := by
    decide +kernel
  have hrange : (Kind.usernameMod.build anyPercent : Except _ (Condition Generator)).isOk =
      true := by
    decide +kernel
  obtain ⟨c, hc⟩ := Fault.exists_of_isOk husers
  obtain ⟨d, hd⟩ := Fault.exists_of_isOk hrange
  have hfalse := fun s => hnobody rfl namelessUsers c (.inl hc) emptyValues.hash s
  have hfalse' := fun s => hnobody rfl anyPercent d (.inr hd) emptyValues.hash s
  exact ⟨hkinds, hdrops, hsame, (hlocation rfl).trans hpage, c, d, hc, hd,
    fun s => ⟨hfalse s, hfalse' s⟩⟩

end Rollout
