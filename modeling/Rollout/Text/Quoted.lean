import Rollout.Text.Hidden

/-! Quoted texts and lists of them as messages and descriptions show them: between double quotes,
the quote and the backslash escaped, and what would not be seen written as an escape. -/
namespace Rollout
set_option autoImplicit false

namespace Text

/-- A character inside quotes: four controls have a short escape, hidden characters show their
number. -/
def shown (c : Char) : List Char :=
  if c = '\x22' then ['\x5c', '\x22']
  else if c = '\x5c' then ['\x5c', '\x5c']
  else if c = '\x00' then ['\x5c', '0']
  else if c = '\t' then ['\x5c', 't']
  else if c = '\r' then ['\x5c', 'r']
  else if c = '\n' then ['\x5c', 'n']
  else if isHidden c then
    ['\x5c', 'u', '\x7b'] ++ Nat.toDigits 16 c.toNat ++ ['\x7d']
  else [c]

def quote (s : String) : String :=
  String.ofList ('\x22' :: s.toList.flatMap shown ++ ['\x22'])

/-- Texts separated by a comma and a space. -/
def commaSeparated (xs : List String) : String := ", ".intercalate xs

def quoteList (xs : List String) : String := "[" ++ commaSeparated (xs.map quote) ++ "]"

def quoteSet (xs : List String) : String := "\x7b" ++ commaSeparated (xs.map quote) ++ "\x7d"

end Text

end Rollout
