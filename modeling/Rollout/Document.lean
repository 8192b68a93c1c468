import Rollout.Entries
import Rollout.Number.Binary64

/-! Documents: the values that a configuration, a condition's fields or a context file hold,
whichever format they were written in. Numbers keep the form they were written in, an integer of
64 bits or a binary64 number, and objects keep the order of their members. -/
namespace Rollout
set_option autoImplicit false

/-! ## Numbers -/

/-- A number of a document: an integer that 64 bits hold, with a sign or without, so from `-2 ^ 63`
to below `2 ^ 64`, or a finite binary64 number. -/
inductive Number where
  | integer (i : Int) (fits : -9223372036854775808 ≤ i ∧ i < 18446744073709551616)
  | real (x : Binary64)
  deriving DecidableEq

namespace Number

/-- The integer `i` as a number, if 64 bits hold it. -/
def ofInt? (i : Int) : Option Number :=
  if h : -9223372036854775808 ≤ i ∧ i < 18446744073709551616 then some (.integer i h) else none

theorem natAbs_lt {i : Int} (h : -9223372036854775808 ≤ i ∧ i < 18446744073709551616) :
    i.natAbs < 18446744073709551616 := by omega

/-- The nearest binary64 number; only an integer can lie off it. -/
def toBinary64 : Number → Binary64
  | integer i h => Binary64.ofInt i (natAbs_lt h)
  | real x => x

end Number

/-! ## Documents -/

inductive Document where
  | null
  | boolean (b : Bool)
  | number (n : Number)
  | text (s : String)
  | list (items : List Document)
  | object (members : List (String × Document))

namespace Document

/-- The member of an object with a name; other documents have no members. -/
def member? : Document → String → Option Document
  | object members, name => Entries.find? members name
  | _, _ => none

def text? : Document → Option String
  | text s => some s
  | _ => none

def items? : Document → Option (List Document)
  | list items => some items
  | _ => none

def members? : Document → Option (Entries Document)
  | object members => some members
  | _ => none

def number? : Document → Option Number
  | number n => some n
  | _ => none

end Document

end Rollout
