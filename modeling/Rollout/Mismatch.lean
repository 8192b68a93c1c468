import Rollout.Json.Printer
import Rollout.Text.Quoted

/-! Mismatches: a document that is not what a record or a choice is read from. -/
namespace Rollout
set_option autoImplicit false

inductive Expected where
  | text
  | texts
  | context
  | choice
  | nothing
  deriving DecidableEq, Repr

def Expected.describe : Expected → String
  | text => "a string"
  | texts => "a sequence"
  | context => "struct EvaluationContext"
  | choice => "string or map"
  | nothing => "unit"

inductive Mismatch where
  | form (found : Document) (expected : Expected)
  | tooLong (length : Nat)
  | notSingle
  | unknownName (found : String) (known : List String)

namespace Mismatch

/-- A number in words: with its point it is a floating point number. -/
def describeNumber : Number → String
  | .integer i h => "integer \x60" ++ Json.numeral (.integer i h) ++ "\x60"
  | .real x => "floating point \x60" ++ Json.numeral (.real x) ++ "\x60"

/-- A document in words; only scalars show their value. -/
def describe : Document → String
  | .null => "null"
  | .boolean b => "boolean \x60" ++ (if b then "true" else "false") ++ "\x60"
  | .number n => describeNumber n
  | .text s => "string " ++ Text.quote s
  | .list _ => "sequence"
  | .object _ => "map"

def backquoted (s : String) : String := "\x60" ++ s ++ "\x60"

def message : Mismatch → String
  | form found expected =>
    "invalid type: " ++ describe found ++ ", expected " ++ expected.describe
  | tooLong n => "invalid length " ++ toString n ++ ", expected fewer elements in array"
  | notSingle => "invalid value: map, expected map with a single key"
  | unknownName found known =>
    "unknown variant " ++ backquoted found ++ ", expected " ++
      " or ".intercalate (known.map backquoted)

end Mismatch

end Rollout
