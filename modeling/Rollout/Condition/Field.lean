import Rollout.ConfigError

/-! Fields of a condition. A field is read as a list of texts, as a number, as a range of percents
or as a natural number; the error names the tag of the condition and the field. Numbers are read
alike in whichever form they are written. -/
namespace Rollout
set_option autoImplicit false

/-! ## Ranges and chances -/

/-- A range of percents: the numbers from `lower` to just below `upper`, both in `[0, 100]`. -/
structure PercentRange where
  lower : Binary64
  upper : Binary64
  lower_nonneg : 0 ≤ lower.units
  upper_le : upper.units ≤ Binary64.unitsOf 100
  lower_lt : lower < upper

namespace PercentRange

def contains (r : PercentRange) (x : Binary64) : Bool := r.lower ≤ x && x < r.upper

end PercentRange

structure Chance where
  value : Binary64
  nonneg : 0 ≤ value.units
  le_one : value.units ≤ Binary64.unitsOf 1

namespace Field

/-! ## Readers -/

/-- A list of texts with at least one item. -/
def texts (spec : Document) (field tag : String) : Except ConfigError (List String) :=
  match (spec.member? field).bind Document.items? with
  | some (d :: rest) =>
    match (d :: rest).mapM Document.text? with
    | some xs => .ok xs
    | none => .error (.badField tag field .texts)
  | _ => .error (.badField tag field .texts)

/-- A number, to the nearest binary64 number. -/
def number (spec : Document) (field tag : String) : Except ConfigError Binary64 :=
  match (spec.member? field).bind Document.number? with
  | some n => .ok n.toBinary64
  | none => .error (.badField tag field .number)

/-- The range between two numbers, the first of which is below the second. -/
def rangeOf (lower upper : Binary64) (tag : String) : Except ConfigError PercentRange :=
  if h : 0 ≤ lower.units ∧ upper.units ≤ Binary64.unitsOf 100 then
    if hlt : lower < upper then .ok ⟨lower, upper, h.1, h.2, hlt⟩
    else .error (.rangeEmpty tag)
  else .error (.rangeOutside tag)

/-- The range that the fields `from` and `to` give. -/
def percentRange (spec : Document) (tag : String) : Except ConfigError PercentRange := do
  let lower ← number spec "from" tag
  let upper ← number spec "to" tag
  rangeOf lower upper tag

def maxNatural : Nat := 18446744073709551615

/-- The natural number that a number of a document is. Integral binary64 numbers count up to
`2 ^ 64`, which is taken for the greatest number of 64 bits. -/
def naturalOf? : Number → Option UInt64
  | .integer i _ => if 0 ≤ i then some (UInt64.ofNat i.toNat) else none
  | .real x =>
    if 0 ≤ x.units ∧ x.isInteger ∧ x.units ≤ Binary64.unitsOf 18446744073709551616 then
      some (UInt64.ofNat (min (x.magnitude / Binary64.perOne) maxNatural))
    else none

def natural (spec : Document) (field tag : String) : Except ConfigError UInt64 :=
  match ((spec.member? field).bind Document.number?).bind naturalOf? with
  | some n => .ok n
  | none => .error (.badField tag field .natural)

/-- A number between zero and one in the field `value`. -/
def chance (spec : Document) (tag : String) : Except ConfigError Chance := do
  let x ← number spec "value" tag
  if h : 0 ≤ x.units ∧ x.units ≤ Binary64.unitsOf 1 then return ⟨x, h.1, h.2⟩
  else throw .chanceOutside

end Field

end Rollout
