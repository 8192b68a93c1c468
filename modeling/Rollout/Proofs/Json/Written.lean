import Rollout.Json.Reader

/-! # JSON texts as they are written

A tree of a JSON text keeps all its characters: the blanks around and between the parts, the escapes
of its texts and the digits of its numerals. It has the characters of a text, a document, and a depth
of nesting. -/
namespace Rollout
set_option autoImplicit false

namespace Json

/-! ## Blanks -/

/-- Blanks and line breaks between the parts of a text. -/
structure Blank where
  chars : List Char
  spaces : ∀ c ∈ chars, isSpace c = true

/-! ## Texts -/

/-- The four hexadecimal digits of an escaped unit. -/
structure Code where
  a : Char
  b : Char
  c : Char
  d : Char
  unit : Nat
  reads : unit? a b c d = some unit

def Code.chars (u : Code) : List Char := ['\x5c', 'u', u.a, u.b, u.c, u.d]

/-- One character of a text as it is written. -/
inductive Piece where
  | plain (c : Char) (h : c ≠ '\x22' ∧ c ≠ '\x5c' ∧ 0x20 ≤ c.toNat)
  | escape (letter meant : Char) (h : escaped? letter = some meant)
  | code (u : Code) (h : Text.isLowSurrogate u.unit = false ∧ Text.isHighSurrogate u.unit = false)
  | pair (high low : Code)
      (h : Text.isHighSurrogate high.unit = true ∧ Text.isLowSurrogate low.unit = true)

namespace Piece

def chars : Piece → List Char
  | plain c _ => [c]
  | escape letter _ _ => ['\x5c', letter]
  | code u _ => u.chars
  | pair high low _ => high.chars ++ low.chars

def meant : Piece → Char
  | plain c _ => c
  | escape _ meant _ => meant
  | code u _ => Char.ofNat u.unit
  | pair high low _ => Text.ofSurrogates high.unit low.unit

end Piece

/-- A text without its opening quote. -/
def spelled (ps : List Piece) : List Char := ps.flatMap Piece.chars ++ ['\x22']

/-! ## Numerals -/

structure Digits where
  chars : List Char
  nonempty : chars ≠ []
  digits : ∀ c ∈ chars, c.isDigit = true

structure Exponent where
  letter : Char
  isLetter : letter = 'e' ∨ letter = 'E'
  sign : List Char
  isSign : sign = [] ∨ sign = ['+'] ∨ sign = ['-']
  digits : Digits

namespace Exponent

def chars (e : Exponent) : List Char := e.letter :: (e.sign ++ e.digits.chars)

def down (e : Exponent) : Bool := e.sign = ['-']

/-- The exponent with its sign. -/
def value (e : Exponent) : Int :=
  if e.down then -(natOf e.digits.chars : Int) else natOf e.digits.chars

/-- The number with these digits and the exponent. One that is too great for counting leads to zero
or out of range. -/
def number? (e : Exponent) (negative : Bool) (d : Decimal) : Option Number :=
  if (excess? 0 e.digits.chars).isNone then
    ((⟨d.digits, d.exponent + e.value⟩ : Decimal).scaled? negative).map Number.real
  else if d.digits ≠ 0 && !e.down then none
  else ((⟨0, 0⟩ : Decimal).scaled? negative).map Number.real

end Exponent

/-- What stands behind the digits before the point. -/
inductive Tail where
  | integer
  | exponent (e : Exponent)
  | places (ds : Digits)
  | scientific (ds : Digits) (e : Exponent)

namespace Tail

def chars : Tail → List Char
  | integer => []
  | exponent e => e.chars
  | places ds => '.' :: ds.chars
  | scientific ds e => '.' :: (ds.chars ++ e.chars)

/-- The digits behind the point. -/
def digits : Tail → List Char
  | places ds => ds.chars
  | scientific ds _ => ds.chars
  | _ => []

def exponent? : Tail → Option Exponent
  | exponent e => some e
  | scientific _ e => some e
  | _ => none

end Tail

/-- A number as it is written. Zero is the only digit before the point if it comes first. -/
structure Numeral where
  negative : Bool
  whole : Digits
  zero : whole.chars.head? = some '0' → whole.chars = ['0']
  tail : Tail

namespace Numeral

/-- The characters but for the sign. -/
def body (x : Numeral) : List Char := x.whole.chars ++ x.tail.chars

def chars (x : Numeral) : List Char := if x.negative then '-' :: x.body else x.body

/-- The digits that 64 bits hold, with their places. -/
def kept (x : Numeral) : Decimal :=
  let (n, dropped) := absorb 0 x.whole.chars
  let (m, unused) := absorb n x.tail.digits
  ⟨m, dropped.length - (x.tail.digits.length - unused.length : Nat)⟩

/-- The digits before the point with the sign. -/
def signed (negative : Bool) (digits : Nat) : Int := if negative then -(digits : Int) else digits

/-- The number of a numeral without point and exponent, its digits that 64 bits hold given. -/
def integer? (negative : Bool) (d : Decimal) : Option Number :=
  let scaled := (d.scaled? negative).map Number.real
  if (negative && d.digits = 0) || d.exponent ≠ 0 then scaled
  else (Number.ofInt? (signed negative d.digits)).or scaled

/-- The number that a numeral is read as, if it is in range. -/
def number? (x : Numeral) : Option Number :=
  match x.tail with
  | .integer => integer? x.negative x.kept
  | .exponent e => e.number? x.negative x.kept
  | .places _ => (x.kept.scaled? x.negative).map Number.real
  | .scientific _ e => e.number? x.negative x.kept

end Numeral

/-! ## Values -/

inductive Scalar where
  | null
  | boolean (b : Bool)
  | text (ps : List Piece)
  | number (x : Numeral) (n : Number) (h : x.number? = some n)

namespace Scalar

def chars : Scalar → List Char
  | null => ['n', 'u', 'l', 'l']
  | boolean true => ['t', 'r', 'u', 'e']
  | boolean false => ['f', 'a', 'l', 's', 'e']
  | text ps => '\x22' :: spelled ps
  | number x _ _ => x.chars

def document : Scalar → Document
  | null => .null
  | boolean b => .boolean b
  | text ps => .text (String.ofList (ps.map Piece.meant))
  | number _ n _ => .number n

end Scalar

/-- The name of a member and the blanks between it and the colon. -/
structure Key where
  pieces : List Piece
  gap : Blank

namespace Key

/-- The characters between the opening quote and the value, the colon included. -/
def chars (k : Key) : List Char := spelled k.pieces ++ (k.gap.chars ++ [':'])

def name (k : Key) : String := String.ofList (k.pieces.map Piece.meant)

end Key

mutual

/-- A value with the blanks inside it. -/
inductive Written where
  | scalar (x : Scalar)
  | emptyList (blank : Blank)
  | list (blank : Blank) (items : Items)
  | emptyObject (blank : Blank)
  | object (blank : Blank) (members : Members)

/-- Items up to the closing bracket, with the blanks after each and after each comma. -/
inductive Items where
  | last (w : Written) (after : Blank)
  | cons (w : Written) (after next : Blank) (rest : Items)

/-- Members up to the closing brace, with the blanks before and after each value and after each
comma. -/
inductive Members where
  | last (key : Key) (before : Blank) (w : Written) (after : Blank)
  | cons (key : Key) (before : Blank) (w : Written) (after next : Blank) (rest : Members)

end

mutual

def Written.chars : Written → List Char
  | .scalar x => x.chars
  | .emptyList blank => '[' :: (blank.chars ++ [']'])
  | .list blank items => '[' :: (blank.chars ++ items.chars)
  | .emptyObject blank => '\x7b' :: (blank.chars ++ ['\x7d'])
  | .object blank members => '\x7b' :: (blank.chars ++ '\x22' :: members.chars)

def Items.chars : Items → List Char
  | .last w after => w.chars ++ (after.chars ++ [']'])
  | .cons w after next rest => w.chars ++ (after.chars ++ ',' :: (next.chars ++ rest.chars))

/-- The characters behind the opening quote of the first name. -/
def Members.chars : Members → List Char
  | .last key before w after => key.chars ++ (before.chars ++ (w.chars ++ (after.chars ++ ['\x7d'])))
  | .cons key before w after next rest => key.chars ++ (before.chars ++ (w.chars ++
      (after.chars ++ ',' :: (next.chars ++ '\x22' :: rest.chars))))

end

mutual

def Written.document : Written → Document
  | .scalar x => x.document
  | .emptyList _ => .list []
  | .list _ items => .list items.documents
  | .emptyObject _ => .object []
  | .object _ members => .object (members.put [])

def Items.documents : Items → List Document
  | .last w _ => [w.document]
  | .cons w _ _ rest => w.document :: rest.documents

/-- Puts the members one after the other. -/
def Members.put : Members → Entries Document → Entries Document
  | .last key _ w _, es => Entries.put es key.name w.document
  | .cons key _ w _ _ rest, es => rest.put (Entries.put es key.name w.document)

end

mutual

/-- How deep lists and objects nest. -/
def Written.depth : Written → Nat
  | .scalar _ => 0
  | .emptyList _ => 1
  | .list _ items => items.depth + 1
  | .emptyObject _ => 1
  | .object _ members => members.depth + 1

def Items.depth : Items → Nat
  | .last w _ => w.depth
  | .cons w _ _ rest => max w.depth rest.depth

def Members.depth : Members → Nat
  | .last _ _ w _ => w.depth
  | .cons _ _ w _ _ rest => max w.depth rest.depth

end

/-- A whole text: a value with blanks around it, not too deep. -/
structure Page where
  lead : Blank
  value : Written
  trail : Blank
  depth_le : value.depth ≤ maxDepth

namespace Page

def chars (p : Page) : List Char := p.lead.chars ++ (p.value.chars ++ p.trail.chars)

def text (p : Page) : String := String.ofList p.chars

def document (p : Page) : Document := p.value.document

end Page

end Json

end Rollout
