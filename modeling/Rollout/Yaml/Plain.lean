import Rollout.Document
import Rollout.Number.Decimal
import Rollout.Text.Hex
import Rollout.Yaml.Tag

/-! What a scalar stands for. A plain scalar is null, a truth value, an integer, a number or else
its own text, in this order; a tag of the core types asks for one of them. Integers may be written
to base 16, 8 or 2, and a leading zero makes decimal digits a text. -/
namespace Rollout
set_option autoImplicit false

namespace Yaml

/-! ## Null and truth values -/

def isNull (cs : List Char) : Bool :=
  ["null", "Null", "NULL", "~"].contains (String.ofList cs)

def boolean? (cs : List Char) : Option Bool :=
  let s := String.ofList cs
  if ["true", "True", "TRUE"].contains s then some true
  else if ["false", "False", "FALSE"].contains s then some false
  else none

/-! ## Integers -/

def isSign (c : Char) : Bool := c = '+' || c = '-'

/-- The value of digits to a base of at most 16; at least one digit, and nothing else. -/
def radix? (base : Nat) (cs : List Char) : Option Nat :=
  if cs = [] then none
  else
    cs.foldl (fun n? c => do
      let n ← n?
      let d ← Text.hexValue? c
      if d < base then some (n * base + d) else none) (some 0)

/-- The value of digits to base 10, or to the base that a mark after a zero names. -/
def magnitude? : List Char → Option Nat
  | '0' :: 'x' :: rest => radix? 16 rest
  | '0' :: 'o' :: rest => radix? 8 rest
  | '0' :: 'b' :: rest => radix? 2 rest
  | cs => radix? 10 cs

/-- A zero and then digits only, after a sign perhaps: a text that looks like an integer. -/
def hasLeadingZero (cs : List Char) : Bool :=
  let ds := match cs with
    | '+' :: rest => rest
    | '-' :: rest => rest
    | rest => rest
  match ds with
  | '0' :: d :: rest => (d :: rest).all Char.isDigit
  | _ => false

/-- An integer of any size. -/
def integer? (cs : List Char) : Option Int :=
  if hasLeadingZero cs then none
  else
    match cs with
    | '-' :: rest => (magnitude? rest).map fun n => -(n : Int)
    | '+' :: rest => (magnitude? rest).map fun n => (n : Int)
    | rest => (magnitude? rest).map fun n => (n : Int)

/-- What an integer comes to: a number that 64 bits hold; a refusal up to 128 bits; beyond, no
integer. -/
inductive Integer where
  | fits (n : Number)
  | refused
  | not

def integer (cs : List Char) : Integer :=
  match integer? cs with
  | none => .not
  | some i =>
    match Number.ofInt? i with
    | some n => .fits n
    | none => if -(twoTo 127 : Int) ≤ i ∧ i < twoTo 128 then .refused else .not

/-! ## Numbers -/

/-- The exponent of a number: nothing, or a letter, a sign perhaps, and digits. -/
def exponent? : List Char → Option Int
  | [] => some 0
  | c :: rest =>
    if c = 'e' || c = 'E' then
      match rest with
      | '+' :: ds => (radix? 10 ds).map fun n => (n : Int)
      | '-' :: ds => (radix? 10 ds).map fun n => -(n : Int)
      | ds => (radix? 10 ds).map fun n => (n : Int)
    else none

/-- A decimal without its sign: digits with a point among, before or after them, and perhaps an
exponent. -/
def decimal? (cs : List Char) : Option Decimal := do
  let whole := cs.takeWhile Char.isDigit
  let rest := cs.drop whole.length
  let (part, rest) := match rest with
    | '.' :: rest => (rest.takeWhile Char.isDigit, rest.dropWhile Char.isDigit)
    | rest => ([], rest)
  let digits ← radix? 10 (whole ++ part)
  let e ← exponent? rest
  return ⟨digits, e - part.length⟩

/-- What a number comes to: a finite one, an infinity or no number at all, or no number's text. -/
inductive Real where
  | finite (x : Binary64)
  | other
  | not

/-- A finite number must lie in range. -/
def finite (negative : Bool) (cs : List Char) : Real :=
  match (decimal? cs).bind fun d => d.toBinary64? negative with
  | some x => .finite x
  | none => .not

def isInfinity (cs : List Char) : Bool :=
  [".inf", ".Inf", ".INF"].contains (String.ofList cs)

def isNaN (cs : List Char) : Bool := [".nan", ".NaN", ".NAN"].contains (String.ofList cs)

def real (cs : List Char) : Real :=
  if isNaN cs then .other
  else
    match cs with
    | '+' :: rest => if isInfinity rest then .other else finite false rest
    | '-' :: rest => if isInfinity rest then .other else finite true rest
    | rest => if isInfinity rest then .other else finite false rest

/-! ## Scalars -/

/-- A number's document; what is not finite has none but null. -/
def Real.document? : Real → Option Document
  | finite x => some (.number (.real x))
  | other => some .null
  | not => none

def plainDocument? (cs : List Char) : Option Document :=
  if cs = [] || isNull cs then some .null
  else
    match boolean? cs with
    | some b => some (.boolean b)
    | none =>
      match integer cs with
      | .fits n => some (.number n)
      | .refused => none
      | .not =>
        if hasLeadingZero cs then some (.text (String.ofList cs))
        else some ((real cs).document?.getD (.text (String.ofList cs)))

/-- The document of a scalar. Core tags ask for one of their kind, and local tags have none. Other
tags make a text, apart from a mark that says nothing. -/
def scalarDocument? (tag : Option Tag) (cs : List Char) (isPlain : Bool) : Option Document :=
  match tag with
  | none => if isPlain then plainDocument? cs else some (.text (String.ofList cs))
  | some tag =>
    if tag.isLocal then none
    else if tag = Tag.core "bool" then (boolean? cs).map .boolean
    else if tag = Tag.core "int" then
      match integer cs with
      | .fits n => some (.number n)
      | _ => none
    else if tag = Tag.core "float" then (real cs).document?
    else if tag = Tag.core "null" then if isNull cs then some .null else none
    else if tag.isMarked && isPlain then plainDocument? cs
    else some (.text (String.ofList cs))

end Yaml

end Rollout
