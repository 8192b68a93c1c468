import Rollout.Proofs.Fault.First

/-! # Checks that fail alike

Two checks are alike if both pass with one answer or both fail with faults that are related. Checks
made one after the other are alike if each is, and so are the checks of the items of a list. -/
namespace Rollout.Fault
set_option autoImplicit false

variable {ε α β : Type} {R : ε → ε → Prop}

inductive Alike (R : ε → ε → Prop) : Except ε α → Except ε α → Prop
  | ok (a : α) : Alike R (.ok a) (.ok a)
  | error {e e' : ε} (h : R e e') : Alike R (.error e) (.error e')

theorem Alike.refl (hR : ∀ e, R e e) (x : Except ε α) : Alike R x x := by
  cases x with
  | error e => exact .error (hR e)
  | ok a => exact .ok a

theorem Alike.eq_ok {x y : Except ε α} (h : Alike R x y) {a : α} (hx : x = .ok a) : y = .ok a := by
  cases h with
  | ok a' => exact hx
  | error h => cases hx

theorem Alike.eq_error {x y : Except ε α} (h : Alike R x y) {e : ε} (hx : x = .error e) :
    ∃ e', y = .error e' ∧ R e e' := by
  cases h with
  | ok a => cases hx
  | error h =>
    cases hx
    exact ⟨_, rfl, h⟩

theorem Alike.bind {x y : Except ε α} {f g : α → Except ε β} (h : Alike R x y)
    (hf : ∀ a, x = .ok a → Alike R (f a) (g a)) : Alike R (x >>= f) (y >>= g) := by
  cases h with
  | ok a => exact hf a rfl
  | error h => exact .error h

theorem Alike.mapM {f g : α → Except ε β} {xs : List α} (h : ∀ x ∈ xs, Alike R (f x) (g x)) :
    Alike R (xs.mapM f) (xs.mapM g) := by
  induction xs with
  | nil => exact .ok []
  | cons x rest ih =>
    obtain ⟨hx, hrest⟩ := List.forall_mem_cons.1 h
    rw [List.mapM_cons, List.mapM_cons]
    apply hx.bind
    intro y _
    apply (ih hrest).bind
    intro ys _
    exact .ok (y :: ys)

end Rollout.Fault
