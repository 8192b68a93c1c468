import Rollout.Random.Source

/-! Trials: what happens in the scope of one resolution. A scope holds what the conditions of the
resolution share, and a trial reads and changes it, answers with a value and notes what it did. A
trial has no answer only if the shared bucket is never drawn. -/
namespace Rollout
set_option autoImplicit false

/-! ## Experiment services -/

/-- An experiment service: the variation that it chooses each time it is asked, and how often it has
been asked. A negative variation is none. -/
structure Service where
  answers : Nat → Int64
  asked : Nat

namespace Service

def fixed (v : Int64) : Service := ⟨fun _ => v, 0⟩

def ask (s : Service) : Int64 × Service := (s.answers s.asked, { s with asked := s.asked + 1 })

end Service

/-! ## Scopes -/

/-- The state of one resolution: the source of random numbers, the shared bucket once it is drawn
or pinned, and the experiment service, if one is attached. A draw of the bucket tries at most
`tries` words. -/
structure Scope (G : Type) where
  source : G
  bucket : Option (Fin 100)
  service : Option Service
  tries : Nat

namespace Scope

variable {G : Type}

/-- How often a draw is tried. A source with a fixed step repeats its words after so many, so a
bucket that has not come by then never comes. -/
def maxTries : Nat := twoTo 32

def fresh (source : G) : Scope G := ⟨source, none, none, maxTries⟩

def withSource (s : Scope G) (source : G) : Scope G := { s with source := source }

def withBucket (s : Scope G) (n : Nat) : Scope G :=
  { s with bucket := some ⟨n % 100, Nat.mod_lt n (by decide)⟩ }

def withService (s : Scope G) (service : Option Service) : Scope G := { s with service := service }

/-- Attaches a service unless one is attached. -/
def inherit (s : Scope G) (service : Option Service) : Scope G :=
  { s with service := s.service <|> service }

end Scope

/-! ## Notes -/

/-- Why an entry is active, or that it is not. -/
inductive Activation where
  | forced
  | conditions
  | inactive
  deriving DecidableEq, Repr

def Activation.isActive : Activation → Bool
  | inactive => false
  | _ => true

inductive Note where
  | replaced (tag : String)
  | answered (tag : String) (holds : Bool)
  | noService
  | tested (tag : String) (holds : Bool)
  | requested (ids : List String)
  | active (id : String) (reason : Activation)
  | resolved (active mods : Nat)
  deriving DecidableEq, Repr

/-! ## Trials -/

/-- The outcome of a trial: its answer, the scope it leaves and what it noted. -/
structure Run (G α : Type) where
  value : α
  scope : Scope G
  notes : List Note

abbrev Trial (G α : Type) := Scope G → Option (Run G α)

namespace Run

variable {G α β : Type}

def map (f : α → β) (r : Run G α) : Run G β := ⟨f r.value, r.scope, r.notes⟩

def noting (notes : List Note) (r : Run G α) : Run G α := { r with notes := notes ++ r.notes }

/-- Goes on with a trial in the scope that a run left. -/
def andThen (r : Run G α) (f : α → Trial G β) : Option (Run G β) :=
  (f r.value r.scope).map (noting r.notes)

end Run

namespace Trial

variable {G α : Type}

def pure (a : α) : Trial G α := fun s => some ⟨a, s, []⟩

def uniform [RandomSource G] : Trial G Binary64 := fun s =>
  some ⟨(Random.uniform s.source).1, s.withSource (Random.uniform s.source).2, []⟩

/-- The shared bucket, drawn the first time it is asked for. -/
def bucket [RandomSource G] : Trial G (Fin 100) := fun s =>
  match s.bucket with
  | some b => some ⟨b, s, []⟩
  | none =>
    (Random.drawBucket s.tries s.source).map fun r =>
      ⟨r.1, { s with source := r.2, bucket := some r.1 }, []⟩

/-- The variation that the experiment service chooses, if one is attached. -/
def variation : Trial G (Option Int64) := fun s =>
  match s.service with
  | some service => some ⟨some service.ask.1, s.withService (some service.ask.2), []⟩
  | none => some ⟨none, s, []⟩

end Trial

end Rollout
