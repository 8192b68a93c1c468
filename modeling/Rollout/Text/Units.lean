/-! Two ways to cut a character into code units: 16-bit units, of which a character past U+FFFF
takes two, and the bytes of its UTF-8 form. Reading bytes comes in two strengths, a strict one
and one that puts U+FFFD for what is not UTF-8. -/
namespace Rollout
set_option autoImplicit false

namespace Text

/-! ## 16-bit units -/

/-- A character as 16-bit units: itself, or a high and a low surrogate. -/
def units16 (c : Char) : List Nat :=
  if c.toNat < 0x10000 then [c.toNat]
  else [0xd800 + (c.toNat - 0x10000) / 0x400, 0xdc00 + (c.toNat - 0x10000) % 0x400]

/-- The 16-bit units of a text, in order. -/
def units (s : String) : List Nat := s.toList.flatMap units16

def isHighSurrogate (n : Nat) : Bool := 0xd800 ≤ n && n < 0xdc00

def isLowSurrogate (n : Nat) : Bool := 0xdc00 ≤ n && n < 0xe000

/-- The character that a high and a low surrogate stand for. -/
def ofSurrogates (high low : Nat) : Char :=
  Char.ofNat (0x10000 + (high - 0xd800) * 0x400 + (low - 0xdc00))

/-! ## Bytes -/

def bytes (s : String) : List UInt8 := s.toList.flatMap String.utf8EncodeChar

def byteCount (cs : List Char) : Nat := cs.foldr (fun c n => c.utf8Size + n) 0

/-- What a first byte promises: how many bytes follow, the range the first of them lies in, and
the bits it gives to the character. A byte that starts no character promises nothing. -/
def promise? (b : UInt8) : Option (Nat × Nat × Nat × Nat) :=
  let n := b.toNat
  if n < 0x80 then some (0, 0, 0, n)
  else if n < 0xc2 then none
  else if n < 0xe0 then some (1, 0x80, 0xbf, n - 0xc0)
  else if n = 0xe0 then some (2, 0xa0, 0xbf, 0)
  else if n = 0xed then some (2, 0x80, 0x9f, n - 0xe0)
  else if n < 0xf0 then some (2, 0x80, 0xbf, n - 0xe0)
  else if n = 0xf0 then some (3, 0x90, 0xbf, 0)
  else if n < 0xf4 then some (3, 0x80, 0xbf, n - 0xf0)
  else if n = 0xf4 then some (3, 0x80, 0x8f, n - 0xf0)
  else none

/-- Reads up to `more` following bytes, the first of them between `low` and `high`: how many were
taken, and the bits so far with `false` if the character breaks off. -/
def follow : Nat → Nat → Nat → Nat → List UInt8 → Nat × Nat × Bool
  | 0, _, _, acc, _ => (0, acc, true)
  | _ + 1, _, _, acc, [] => (0, acc, false)
  | more + 1, low, high, acc, b :: bs =>
    if low ≤ b.toNat && b.toNat ≤ high then
      let r := follow more 0x80 0xbf (acc * 64 + (b.toNat - 0x80)) bs
      (r.1 + 1, r.2)
    else (0, acc, false)

/-- The characters of a byte list, `none` for each longest piece that could have been the start
of a character and is not one. -/
def decodeFrom : Nat → List UInt8 → List (Option Char)
  | _, [] => []
  | 0, _ :: _ => []
  | fuel + 1, b :: bs =>
    match promise? b with
    | none => none :: decodeFrom fuel bs
    | some (more, low, high, acc) =>
      match follow more low high acc bs with
      | (taken, code, true) => some (Char.ofNat code) :: decodeFrom fuel (bs.drop taken)
      | (taken, _, false) => none :: decodeFrom fuel (bs.drop taken)

def decoded (bs : List UInt8) : List (Option Char) := decodeFrom bs.length bs

/-- The text of a byte list, with U+FFFD for each piece that is not UTF-8. -/
def ofBytesLossy (bs : List UInt8) : String :=
  String.ofList ((decoded bs).map fun c => c.getD (Char.ofNat 0xfffd))

/-- The text of a byte list that is UTF-8 throughout. -/
def ofBytes? (bs : List UInt8) : Option String :=
  ((decoded bs).mapM id).map String.ofList

end Text

end Rollout
