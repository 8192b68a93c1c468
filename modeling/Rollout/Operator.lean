import Rollout.Condition.Basic
import Rollout.Mismatch

/-! Operators: how an entry combines its conditions. Conditions are tested in order until the
outcome is known, and no further. -/
namespace Rollout
set_option autoImplicit false

inductive Operator where
  | all
  | any
  deriving DecidableEq, Repr

namespace Operator

def name : Operator → String
  | all => "AND"
  | any => "OR"

/-- The operator with exactly this name. -/
def ofName (s : String) : Except Mismatch Operator :=
  if s = all.name then .ok all
  else if s = any.name then .ok any
  else .error (.unknownName s [all.name, any.name])

/-- The operator that a document names: a text, or an object whose one member has the name and is
null. -/
def ofDocument : Document → Except Mismatch Operator
  | .text s => ofName s
  | .object [(name, .null)] => ofName name
  | .object [(name, value)] => do
    let _ ← ofName name
    throw (.form value .nothing)
  | .object _ => .error .notSingle
  | found => .error (.form found .choice)

/-- ASCII letters in upper case. -/
def upper (s : String) : String := String.ofList (s.toList.map Char.toUpper)

/-- The operator of a name in either case; absent or null is `any`. -/
def parse : Option Document → Except ConfigError Operator
  | none => .ok any
  | some .null => .ok any
  | some (.text s) =>
    if upper s = "AND" then .ok all
    else if upper s = "OR" then .ok any
    else .error (.badOperator (.text s))
  | some found => .error (.badOperator found)

/-- The outcome with no condition left to test. -/
def neutral : Operator → Bool
  | all => true
  | any => false

/-- Tests conditions in order, each in the scope that the one before left, up to the first whose
answer is not the neutral one. -/
def evaluate {G : Type} [RandomSource G] (op : Operator) (ctx : Context) :
    List (Condition G) → Trial G Bool
  | [] => Trial.pure op.neutral
  | c :: rest => fun s =>
    match c.test ctx s with
    | none => none
    | some r =>
      let r : Run G Bool := { r with notes := r.notes ++ [.tested c.tag r.value] }
      if r.value = op.neutral then r.andThen fun _ => evaluate op ctx rest else some r

end Operator

end Rollout
