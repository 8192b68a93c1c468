import Rollout.Proofs.Fault.First

/-! # Checks that match

Two checks match if both fail with one fault or both pass with answers that are related. Checks made
one after the other match if each does, and so do the checks of two lists whose items are related
side by side. Values that may be absent are related if both are there and related or neither is. -/
namespace Rollout
set_option autoImplicit false

/-! ## Values that may be absent -/

theorem optionRel_refl {α : Type} {R : α → α → Prop} (hR : ∀ a, R a a) (x : Option α) :
    Option.Rel R x x := by
  cases x with
  | none => exact .none
  | some a => exact .some (hR a)

theorem eq_of_optionRel {α : Type} {x y : Option α} (h : Option.Rel (fun a b => a = b) x y) :
    x = y := by
  cases h with
  | none => rfl
  | some h => rw [h]

theorem optionRel_bind {α β γ δ : Type} {R : α → β → Prop} {S : γ → δ → Prop} {x : Option α}
    {y : Option β} (h : Option.Rel R x y) {f : α → Option γ} {g : β → Option δ}
    (hfg : ∀ a b, R a b → Option.Rel S (f a) (g b)) : Option.Rel S (x.bind f) (y.bind g) := by
  cases h with
  | none => exact .none
  | some h => exact hfg _ _ h

/-! ## Checks -/

namespace Fault

variable {ε α β γ δ : Type} {R : α → β → Prop} {S : γ → δ → Prop}

inductive Matched (R : α → β → Prop) : Except ε α → Except ε β → Prop
  | ok {a : α} {b : β} (h : R a b) : Matched R (.ok a) (.ok b)
  | error (e : ε) : Matched R (.error e) (.error e)

theorem Matched.refl {R : α → α → Prop} (hR : ∀ a, R a a) (x : Except ε α) : Matched R x x := by
  cases x with
  | error e => exact .error e
  | ok a => exact .ok (hR a)

theorem Matched.same (x : Except ε α) : Matched Eq x x := .refl Eq.refl x

theorem Matched.eq_error_iff {x : Except ε α} {y : Except ε β} (h : Matched R x y) (e : ε) :
    y = .error e ↔ x = .error e := by
  cases h with
  | ok h => simp
  | error e' => simp

theorem Matched.exists_of_ok {x : Except ε α} {y : Except ε β} (h : Matched R x y) {a : α}
    (hx : x = .ok a) : ∃ b, y = .ok b ∧ R a b := by
  cases h with
  | ok h =>
    cases hx
    exact ⟨_, rfl, h⟩
  | error e => cases hx

theorem Matched.bind {x : Except ε α} {y : Except ε β} {f : α → Except ε γ} {g : β → Except ε δ}
    (h : Matched R x y) (hfg : ∀ a b, x = .ok a → R a b → Matched S (f a) (g b)) :
    Matched S (x >>= f) (y >>= g) := by
  cases h with
  | ok h => exact hfg _ _ rfl h
  | error e => exact .error e

theorem Matched.map {x : Except ε α} {y : Except ε β} {f : α → γ} {g : β → δ}
    (h : Matched R x y) (hfg : ∀ a b, R a b → S (f a) (g b)) : Matched S (x.map f) (y.map g) := by
  cases h with
  | ok h => exact .ok (hfg _ _ h)
  | error e => exact .error e

theorem Matched.mapM {f : γ → Except ε α} {g : δ → Except ε β} {xs : List γ} {ys : List δ}
    (h : List.Forall₂ S xs ys) (hfg : ∀ x ∈ xs, ∀ y, S x y → Matched R (f x) (g y)) :
    Matched (List.Forall₂ R) (xs.mapM f) (ys.mapM g) := by
  induction h with
  | nil => exact .ok .nil
  | cons hxy _ ih =>
    obtain ⟨hfirst, hrest⟩ := List.forall_mem_cons.1 hfg
    rw [List.mapM_cons, List.mapM_cons]
    refine (hfirst _ hxy).bind fun a b _ hab => ?_
    exact (ih hrest).bind fun as bs _ habs => .ok (.cons hab habs)

end Fault

end Rollout
