/-! Hexadecimal digits: their values, in either case, and the digits of small values. -/
namespace Rollout
set_option autoImplicit false

namespace Text

def hexValue? (c : Char) : Option Nat :=
  if '0' ≤ c ∧ c ≤ '9' then some (c.toNat - 0x30)
  else if 'a' ≤ c ∧ c ≤ 'f' then some (c.toNat - 0x61 + 10)
  else if 'A' ≤ c ∧ c ≤ 'F' then some (c.toNat - 0x41 + 10)
  else none

def hexNumber? (cs : List Char) : Option Nat :=
  (cs.mapM hexValue?).map fun ds => ds.foldl (fun n d => n * 16 + d) 0

def hexLower (n : Nat) : Char := if n < 10 then Char.ofNat (0x30 + n) else Char.ofNat (0x57 + n)

def hexUpper (n : Nat) : Char := if n < 10 then Char.ofNat (0x30 + n) else Char.ofNat (0x37 + n)

theorem hexValue?_hexUpper : ∀ n : Fin 16, hexValue? (hexUpper n) = some n.val := by decide

end Text

end Rollout
