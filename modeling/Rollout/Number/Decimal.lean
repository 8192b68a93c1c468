import Rollout.Number.Binary64

/-! Decimals and binary64. A decimal is read by rounding its exact value once or, the quicker way,
by rounding its digits and then scaling them by a power of ten. A number is written with the fewest
digits that read back as it, and of those with the nearest ones; where the point goes and when an
exponent is written is the choice of a `DecimalStyle`. -/
namespace Rollout
set_option autoImplicit false

/-- The decimal `digits * 10 ^ exponent`. -/
structure Decimal where
  digits : Nat
  exponent : Int
  deriving DecidableEq

namespace Decimal

/-! ## Reading -/

/-- A decimal with a sign, rounded once; `none` past the greatest number. Beyond the two limits on
the exponent the power of ten is not needed: the value is over the greatest number or under half
a unit. -/
def toBinary64? (negative : Bool) (d : Decimal) : Option Binary64 :=
  if d.digits = 0 then Binary64.nearest? negative 0 1
  else if 310 < d.exponent then none
  else if d.exponent + d.digits.log2 + 1 < -400 then Binary64.nearest? negative 0 1
  else if 0 ≤ d.exponent then Binary64.nearest? negative (d.digits * tenTo d.exponent.toNat) 1
  else Binary64.nearest? negative d.digits (tenTo (-d.exponent).toNat)

/-- The power `10 ^ k`, rounded. -/
def power? (k : Nat) : Option Binary64 := Binary64.nearest? false (tenTo k) 1

/-- The greatest power of ten within the range of binary64. -/
def maxPower : Nat := 308

/-- Scales a number by a power of ten, rounding at each of the steps that it takes: one, and for
small numbers one for each 308 places before. `fuel` bounds the latter. -/
def scale? (negative : Bool) : Nat → Binary64 → Int → Option Binary64
  | 0, _, _ => none
  | fuel + 1, x, exponent =>
    if exponent.natAbs ≤ maxPower then
      (power? exponent.natAbs).bind fun p =>
        if 0 ≤ exponent then x.times? negative p else x.over? negative p
    else if x.significand = 0 then Binary64.nearest? negative 0 1
    else if 0 ≤ exponent then none
    else
      (power? maxPower).bind fun p =>
        (x.over? negative p).bind fun y => scale? negative fuel y (exponent + maxPower)

/-- A decimal with a sign, its digits rounded and then scaled; `none` past the greatest number.
Four steps take any number of 64 bits to zero. -/
def scaled? (negative : Bool) (d : Decimal) : Option Binary64 :=
  (Binary64.nearest? negative d.digits 1).bind fun x => scale? negative 4 x d.exponent

/-! ## The fewest digits -/

/-- The number of decimal digits of a natural number. -/
def width (n : Nat) : Nat := (Nat.toDigits 10 n).length

/-- The exponent of the first digit of a nonzero magnitude: the power of ten it is at least. -/
def leading (magnitude : Nat) : Int :=
  if Binary64.perOne ≤ magnitude then (width (magnitude / Binary64.perOne) : Int) - 1
  else -(width ((Binary64.perOne - 1) / magnitude) : Int)

/-- The two decimals with last digit at `10 ^ exponent` that enclose a magnitude, and whether the
upper one is the nearer; a tie goes to the even one. -/
def neighbours (magnitude : Nat) (exponent : Int) : Decimal × Decimal × Bool :=
  let num := magnitude * tenTo (-exponent).toNat
  let den := Binary64.perOne * tenTo exponent.toNat
  let low := num / den
  let twice := 2 * (num % den)
  (⟨low, exponent⟩, ⟨low + 1, exponent⟩, den < twice || (den = twice && low % 2 = 1))

/-- The decimal with last digit at `10 ^ exponent` that reads back as `x`, the nearer of two. -/
def reading? (x : Binary64) (exponent : Int) : Option Decimal :=
  let (low, high, up) := neighbours x.magnitude exponent
  let reads (d : Decimal) : Bool := d.toBinary64? x.negative = some x
  match reads low, reads high with
  | true, true => some (if up then high else low)
  | true, false => some low
  | false, true => some high
  | false, false => none

/-- The shortest decimal that reads back as `x`: 17 digits are enough for every number. -/
def shortest (x : Binary64) : Decimal :=
  if x.significand = 0 then ⟨0, 0⟩
  else
    let first := leading x.magnitude
    ((List.range 17).findSome? fun n : Nat => reading? x (first - n)).getD
      (neighbours x.magnitude (first - 16)).1

end Decimal

/-! ## Writing -/

/-- How a decimal is written: the exponents of the first digit for which the point is set among
the digits, and whether other exponents show a plus sign. -/
structure DecimalStyle where
  least : Int
  greatest : Int
  plus : Bool

namespace DecimalStyle

/-- The digits of a nonzero decimal without zeros at the end. -/
def strip (digits : List Char) : List Char :=
  (digits.reverse.dropWhile (· = '0')).reverse

/-- Digits with the point set after the digit of `10 ^ 0`, at least one digit on each side. -/
def positional (digits : List Char) (first : Int) : List Char :=
  if first < 0 then
    ['0', '.'] ++ List.replicate (-first - 1).toNat '0' ++ digits
  else
    let whole := first.toNat + 1
    if digits.length ≤ whole then
      digits ++ List.replicate (whole - digits.length) '0' ++ ['.', '0']
    else digits.take whole ++ '.' :: digits.drop whole

/-- One digit, the point and the rest if there is a rest, and the exponent. -/
def scientific (plus : Bool) (digits : List Char) (first : Int) : List Char :=
  let mantissa := match digits with
    | d :: e :: rest => d :: '.' :: e :: rest
    | short => short
  let sign := if first < 0 then ['-'] else if plus then ['+'] else []
  mantissa ++ 'e' :: sign ++ Nat.toDigits 10 first.natAbs

/-- A number in its shortest decimal form, with the sign of zero. -/
def render (style : DecimalStyle) (x : Binary64) : String :=
  let d := Decimal.shortest x
  let all := Nat.toDigits 10 d.digits
  let first := d.exponent + (all.length : Int) - 1
  let body :=
    if x.significand = 0 then ['0', '.', '0']
    else if style.least ≤ first && first ≤ style.greatest then positional (strip all) first
    else scientific style.plus (strip all) first
  String.ofList (if x.negative then '-' :: body else body)

end DecimalStyle

end Rollout
