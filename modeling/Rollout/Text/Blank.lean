/-! Blank characters, the ones with the Unicode property White_Space, and the trimming of a text
at both ends. Tags that are blank throughout name no condition, and the ids of a URL are read
without the blanks around them. -/
namespace Rollout
set_option autoImplicit false

namespace Text

/-! ## The property -/

/-- The ranges of White_Space, ends included: 25 characters. -/
def blankRanges : List (Nat × Nat) :=
  [(0x09, 0x0d), (0x20, 0x20), (0x85, 0x85), (0xa0, 0xa0), (0x1680, 0x1680), (0x2000, 0x200a),
    (0x2028, 0x2029), (0x202f, 0x202f), (0x205f, 0x205f), (0x3000, 0x3000)]

def isBlank (c : Char) : Bool :=
  blankRanges.any fun r => r.1 ≤ c.toNat && c.toNat ≤ r.2

/-- Nothing but blanks, the empty text included. -/
def allBlank (s : String) : Bool := s.toList.all isBlank

/-! ## Trimming -/

/-- A list without the blanks at its two ends. -/
def trimmed (cs : List Char) : List Char :=
  ((cs.dropWhile isBlank).reverse.dropWhile isBlank).reverse

def trim (s : String) : String := String.ofList (trimmed s.toList)

end Text

end Rollout
