import Mathlib.Data.List.Basic
import Rollout.Proofs.Fault.First

/-! # The first of all the faults

All the faults that checks would find, in the order of the checks, against the one that is reported
when checking stops at the first. A check that reports its faults passes exactly when it has none,
and fails with the first of them otherwise. Checks made one after the other report the faults of
each, one list after the other. -/
namespace Rollout.Fault
set_option autoImplicit false

variable {ε α β : Type}

/-- The check passes if there is no fault and fails with the first one otherwise. -/
def Reports : Except ε α → List ε → Prop
  | .ok _, faults => faults = []
  | .error e, faults => faults.head? = some e

def found : Except ε α → List ε
  | .ok _ => []
  | .error e => [e]

theorem reports_found (x : Except ε α) : Reports x (found x) := by
  cases x with
  | ok a => rfl
  | error e => rfl

theorem Reports.eq_error_iff {x : Except ε α} {faults : List ε} (h : Reports x faults) {e : ε} :
    x = .error e ↔ faults.head? = some e := by
  cases x with
  | ok a =>
    have hnil : faults = [] := h
    simp [hnil]
  | error e' =>
    have hhead : faults.head? = some e' := h
    simp [hhead]

/-- The check that comes second is made only if the first one passes. -/
theorem Reports.bind {x : Except ε α} {f : α → Except ε β} {first second : List ε}
    (hx : Reports x first) (hf : ∀ a, x = .ok a → Reports (f a) second) :
    Reports (x >>= f) (first ++ second) := by
  cases x with
  | ok a =>
    have hnil : first = [] := hx
    rw [hnil]
    exact hf a rfl
  | error e =>
    have hhead : first.head? = some e := hx
    show (first ++ second).head? = some e
    rw [List.head?_append, hhead]
    rfl

theorem Reports.pure (a : α) : Reports (pure a : Except ε α) [] := rfl

theorem Reports.bind_pure {x : Except ε α} {faults : List ε} (hx : Reports x faults) (f : α → β) :
    Reports (x >>= fun a => Pure.pure (f a)) faults := by
  rw [← List.append_nil faults]
  exact hx.bind fun a _ => .pure (f a)

theorem Reports.mapM {f : α → Except ε β} {faults : α → List ε} {xs : List α}
    (h : ∀ x ∈ xs, Reports (f x) (faults x)) : Reports (xs.mapM f) (xs.flatMap faults) := by
  induction xs with
  | nil => exact .pure []
  | cons x rest ih =>
    obtain ⟨hx, hrest⟩ := List.forall_mem_cons.1 h
    rw [List.mapM_cons, List.flatMap_cons]
    apply hx.bind
    intro y _
    exact (ih hrest).bind_pure fun ys => y :: ys

end Rollout.Fault
