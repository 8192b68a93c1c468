import Rollout.Document
import Rollout.Number.Decimal
import Rollout.Text.Hex

/-! JSON texts of documents: the compact form, without a space, and the indented form with two
spaces a level. Members keep their order, and a text escapes only what it has to. -/
namespace Rollout
set_option autoImplicit false

namespace Json

/-! ## Scalars -/

/-- Numbers show their point between `0.00001` and just under `1e16`, and an exponent, with its
sign, beyond. -/
def decimals : DecimalStyle := ⟨-5, 15, true⟩

def numeral : Number → String
  | .integer i _ => toString i
  | .real x => decimals.render x

/-- A character inside quotes: the quote, the backslash and the control characters are escaped,
the last ones by a letter where JSON has one. -/
def escape (c : Char) : List Char :=
  if c = '\x22' then ['\x5c', '\x22']
  else if c = '\x5c' then ['\x5c', '\x5c']
  else if c = '\x08' then ['\x5c', 'b']
  else if c = '\x0c' then ['\x5c', 'f']
  else if c = '\n' then ['\x5c', 'n']
  else if c = '\r' then ['\x5c', 'r']
  else if c = '\t' then ['\x5c', 't']
  else if c.toNat < 0x20 then
    ['\x5c', 'u', '0', '0', Text.hexLower (c.toNat / 16), Text.hexLower (c.toNat % 16)]
  else [c]

def quoted (s : String) : String :=
  String.ofList ('\x22' :: s.toList.flatMap escape ++ ['\x22'])

/-! ## Compact -/

mutual

/-- The text of a document without spaces or line breaks. -/
def compact : Document → String
  | .null => "null"
  | .boolean b => if b then "true" else "false"
  | .number n => numeral n
  | .text s => quoted s
  | .list items => "[" ++ compactItems items ++ "]"
  | .object members => "\x7b" ++ compactMembers members ++ "\x7d"

def compactItems : List Document → String
  | [] => ""
  | [d] => compact d
  | d :: e :: rest => compact d ++ "," ++ compactItems (e :: rest)

def compactMembers : List (String × Document) → String
  | [] => ""
  | [(k, d)] => quoted k ++ ":" ++ compact d
  | (k, d) :: e :: rest => quoted k ++ ":" ++ compact d ++ "," ++ compactMembers (e :: rest)

end

/-! ## Indented -/

def newline (level : Nat) : String := String.ofList ('\n' :: List.replicate (2 * level) ' ')

mutual

/-- The text of a document inside `level` open brackets, each item and member on a line of its
own; what is empty stays on one line. -/
def indented (level : Nat) : Document → String
  | .null => "null"
  | .boolean b => if b then "true" else "false"
  | .number n => numeral n
  | .text s => quoted s
  | .list [] => "[]"
  | .list (d :: rest) => "[" ++ indentedItems (level + 1) (d :: rest) ++ newline level ++ "]"
  | .object [] => "\x7b\x7d"
  | .object (e :: rest) =>
    "\x7b" ++ indentedMembers (level + 1) (e :: rest) ++ newline level ++ "\x7d"

def indentedItems (level : Nat) : List Document → String
  | [] => ""
  | [d] => newline level ++ indented level d
  | d :: e :: rest => newline level ++ indented level d ++ "," ++ indentedItems level (e :: rest)

def indentedMembers (level : Nat) : List (String × Document) → String
  | [] => ""
  | [(k, d)] => newline level ++ quoted k ++ ": " ++ indented level d
  | (k, d) :: e :: rest =>
    newline level ++ quoted k ++ ": " ++ indented level d ++ "," ++
      indentedMembers level (e :: rest)

end

end Json

end Rollout
