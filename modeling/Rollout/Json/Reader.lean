import Rollout.Document
import Rollout.Number.Decimal
import Rollout.Text.Hex
import Rollout.Text.Units

/-! Reading JSON texts. A reader takes the characters still to be read and gives back a value and
the rest, or a fault with the number of bytes that follow the place of the fault. Lines and
columns are counted once, from that number. Lists and objects nest at most 127 deep. -/
namespace Rollout
set_option autoImplicit false

namespace Json

/-! ## Faults -/

inductive Fault where
  | endInValue
  | endInList
  | endInObject
  | endInText
  | expectedColon
  | expectedListEnd
  | expectedObjectEnd
  | expectedWord
  | expectedValue
  | badEscape
  | badNumber
  | outOfRange
  | loneSurrogate
  | endOfEscape
  | control
  | keyNotText
  | trailingComma
  | trailingCharacters
  | tooDeep
  deriving DecidableEq, Repr

def Fault.message : Fault → String
  | endInValue => "EOF while parsing a value"
  | endInList => "EOF while parsing a list"
  | endInObject => "EOF while parsing an object"
  | endInText => "EOF while parsing a string"
  | expectedColon => "expected \x60:\x60"
  | expectedListEnd => "expected \x60,\x60 or \x60]\x60"
  | expectedObjectEnd => "expected \x60,\x60 or \x60\x7d\x60"
  | expectedWord => "expected ident"
  | expectedValue => "expected value"
  | badEscape => "invalid escape"
  | badNumber => "invalid number"
  | outOfRange => "number out of range"
  | loneSurrogate => "lone leading surrogate in hex escape"
  | endOfEscape => "unexpected end of hex escape"
  | control => "control character (\\u0000-\\u001F) found while parsing a string"
  | keyNotText => "key must be a string"
  | trailingComma => "trailing comma"
  | trailingCharacters => "trailing characters"
  | tooDeep => "recursion limit exceeded"

/-- A fault and the number of bytes after the place where it shows. -/
structure Failure where
  fault : Fault
  left : Nat

/-- A fault with its line, from one, and the number of bytes up to it on that line. -/
structure Error where
  fault : Fault
  line : Nat
  column : Nat
  deriving DecidableEq, Repr

def Error.message (e : Error) : String :=
  e.fault.message ++ " at line " ++ toString e.line ++ " column " ++ toString e.column

/-- Line and column after the first `count` bytes of a text. -/
def position : List Char → Nat → Nat × Nat → Nat × Nat
  | [], _, place => place
  | c :: rest, count, (line, column) =>
    if count < c.utf8Size then (line, column + count)
    else if c = '\n' then position rest (count - 1) (line + 1, 0)
    else position rest (count - c.utf8Size) (line, column + c.utf8Size)

def Failure.locate (whole : List Char) (f : Failure) : Error :=
  let (line, column) := position whole (Text.byteCount whole - f.left) (1, 0)
  ⟨f.fault, line, column⟩

/-- What a reader makes of the characters before it: a value and the characters after it. -/
abbrev Reader (α : Type) := List Char → Except Failure (α × List Char)

def atEnd {α : Type} (fault : Fault) : Except Failure α := .error ⟨fault, 0⟩

/-- A fault that shows once everything before `rest` has been read. -/
def before {α : Type} (rest : List Char) (fault : Fault) : Except Failure α :=
  .error ⟨fault, Text.byteCount rest⟩

def atFirst {α : Type} (cs : List Char) (fault : Fault) : Except Failure α :=
  .error ⟨fault, Text.byteCount cs - 1⟩

/-! ## Characters -/

def isSpace (c : Char) : Bool := c = ' ' || c = '\t' || c = '\n' || c = '\r'

def skipSpace (cs : List Char) : List Char := cs.dropWhile isSpace

/-- Four hexadecimal digits as a 16-bit unit. -/
def unit? (a b c d : Char) : Option Nat := Text.hexNumber? [a, b, c, d]

/-- The fault of an escape whose next four bytes are not four hexadecimal digits. -/
def badUnit {α : Type} (cs : List Char) : Except Failure α :=
  if Text.byteCount cs < 4 then atEnd .endInText
  else .error ⟨.badEscape, Text.byteCount cs - 4⟩

/-- The character that a letter after the backslash stands for. -/
def escaped? (c : Char) : Option Char :=
  if c = '\x22' ∨ c = '\x5c' ∨ c = '/' then some c
  else if c = 'b' then some '\x08'
  else if c = 'f' then some '\x0c'
  else if c = 'n' then some '\n'
  else if c = 'r' then some '\r'
  else if c = 't' then some '\t'
  else none

/-! ## Texts -/

/-- Puts a character before the ones read after it. -/
def prepend (c : Char) : Except Failure (List Char × List Char) →
    Except Failure (List Char × List Char)
  | .ok (cs, rest) => .ok (c :: cs, rest)
  | .error e => .error e

/-- The characters of a text up to its closing quote. -/
def text : Reader (List Char)
  | [] => atEnd .endInText
  | '\x22' :: rest => .ok ([], rest)
  | ['\x5c'] => atEnd .endInText
  | '\x5c' :: 'u' :: a :: b :: c :: d :: rest =>
    match unit? a b c d with
    | none => badUnit (a :: b :: c :: d :: rest)
    | some high =>
      if Text.isLowSurrogate high then before rest .loneSurrogate
      else if !Text.isHighSurrogate high then prepend (Char.ofNat high) (text rest)
      else
        match rest with
        | [] => atEnd .endInText
        | ['\x5c'] => atEnd .endInText
        | '\x5c' :: 'u' :: e :: f :: g :: h :: more =>
          match unit? e f g h with
          | none => badUnit (e :: f :: g :: h :: more)
          | some low =>
            if Text.isLowSurrogate low then prepend (Text.ofSurrogates high low) (text more)
            else before more .loneSurrogate
        | '\x5c' :: 'u' :: more => badUnit more
        | '\x5c' :: more => atFirst more .endOfEscape
        | more => atFirst more .endOfEscape
  | '\x5c' :: 'u' :: rest => badUnit rest
  | '\x5c' :: c :: rest =>
    match escaped? c with
    | some e => prepend e (text rest)
    | none => atFirst (c :: rest) .badEscape
  | c :: rest => if c.toNat < 0x20 then before rest .control else prepend c (text rest)

/-! ## Numbers -/

def digitsOf (cs : List Char) : List Char := cs.takeWhile Char.isDigit

def afterDigits (cs : List Char) : List Char := cs.dropWhile Char.isDigit

def natOf (ds : List Char) : Nat := ds.foldl (fun n d => n * 10 + (d.toNat - 0x30)) 0

/-- Appends digits to a number while 64 bits hold it; the digits that no longer fit are left. -/
def absorb (n : Nat) : List Char → Nat × List Char
  | [] => (n, [])
  | d :: ds =>
    if n * 10 + (d.toNat - 0x30) < twoTo 64 then absorb (n * 10 + (d.toNat - 0x30)) ds
    else (n, d :: ds)

/-- The greatest exponent that is counted. -/
def maxExponent : Nat := 2147483647

/-- The digits of an exponent up to the first that takes it past the greatest one, if any does. -/
def excess? (n : Nat) : List Char → Option (List Char)
  | [] => none
  | d :: rest =>
    if maxExponent < n * 10 + (d.toNat - 0x30) then some rest
    else excess? (n * 10 + (d.toNat - 0x30)) rest

/-- A binary64 number in range, `rest` being what follows it. -/
def inRange (rest : List Char) : Option Binary64 → Except Failure (Number × List Char)
  | some x => .ok (.real x, rest)
  | none => before rest .outOfRange

/-- The number with these digits and exponent, `rest` being what follows it. -/
def real (negative : Bool) (d : Decimal) (rest : List Char) :
    Except Failure (Number × List Char) :=
  inRange rest (d.scaled? negative)

/-- Whether an exponent is negative, and its digits with what follows them. -/
def exponentSign : List Char → Bool × List Char
  | '+' :: rest => (false, rest)
  | '-' :: rest => (true, rest)
  | rest => (false, rest)

def exponentDigits (negative : Bool) (d : Decimal) (down : Bool) (cs : List Char) :
    Except Failure (Number × List Char) :=
  match cs with
  | [] => atEnd .endInValue
  | c :: _ =>
    if !c.isDigit then atFirst cs .badNumber
    else
      let rest := afterDigits cs
      match excess? 0 (digitsOf cs) with
      | none =>
        let e : Int := natOf (digitsOf cs)
        real negative ⟨d.digits, if down then d.exponent - e else d.exponent + e⟩ rest
      | some more =>
        if d.digits ≠ 0 && !down then before (more ++ rest) .outOfRange
        else real negative ⟨0, 0⟩ rest

def exponent (negative : Bool) (d : Decimal) (cs : List Char) :
    Except Failure (Number × List Char) :=
  exponentDigits negative d (exponentSign cs).1 (exponentSign cs).2

/-- An integer. Minus zero is a binary64 number, and so is an integer that 64 bits do not hold,
with or without all of its digits. -/
def integer (negative : Bool) (d : Decimal) (rest : List Char) :
    Except Failure (Number × List Char) :=
  let i : Int := if negative then -(d.digits : Int) else d.digits
  if (negative && d.digits = 0) || d.exponent ≠ 0 then real negative d rest
  else
    match Number.ofInt? i with
    | some n => .ok (n, rest)
    | none => real negative d rest

/-- What may follow the digits before the point. Digits that 64 bits no longer hold are dropped;
before the point they still count as places. -/
def afterWhole (negative : Bool) (whole : List Char) (cs : List Char) :
    Except Failure (Number × List Char) :=
  let (n, dropped) := absorb 0 whole
  let d : Decimal := ⟨n, dropped.length⟩
  match cs with
  | '.' :: cs =>
    let digits := digitsOf cs
    let (m, unused) := absorb n digits
    let d : Decimal := ⟨m, d.exponent - (digits.length - unused.length : Nat)⟩
    match digits, afterDigits cs with
    | [], [] => atEnd .endInValue
    | [], rest => atFirst rest .badNumber
    | _, 'e' :: rest => exponent negative d rest
    | _, 'E' :: rest => exponent negative d rest
    | _, rest => real negative d rest
  | 'e' :: rest => exponent negative d rest
  | 'E' :: rest => exponent negative d rest
  | rest => integer negative d rest

/-- A number after its sign. No digit follows a zero that comes first. -/
def number (negative : Bool) : Reader Number
  | [] => atEnd .endInValue
  | '0' :: rest =>
    match rest with
    | c :: _ => if c.isDigit then atFirst rest .badNumber else afterWhole negative ['0'] rest
    | [] => afterWhole negative ['0'] []
  | c :: rest =>
    if c.isDigit then afterWhole negative (digitsOf (c :: rest)) (afterDigits (c :: rest))
    else atFirst (c :: rest) .badNumber

/-! ## Values -/

/-- The rest of a word such as `true`, its first letter read. -/
def word (d : Document) : List Char → Reader Document
  | [], cs => .ok (d, cs)
  | _ :: _, [] => atEnd .endInValue
  | w :: ws, c :: cs => if w = c then word d ws cs else atFirst (c :: cs) .expectedWord

/-- Items of a list, each read by `item`, up to the closing bracket. `fuel` bounds their number;
the length of the text is enough, since each takes a character. -/
def items (item : Reader Document) : Nat → Reader (List Document)
  | 0, _ => atEnd .endInList
  | fuel + 1, cs =>
    match item cs with
    | .error e => .error e
    | .ok (d, rest) =>
      match skipSpace rest with
      | [] => atEnd .endInList
      | ']' :: rest => .ok ([d], rest)
      | ',' :: rest =>
        match skipSpace rest with
        | [] => atEnd .endInValue
        | ']' :: rest => before rest .trailingComma
        | rest =>
          match items item fuel rest with
          | .error e => .error e
          | .ok (ds, rest) => .ok (d :: ds, rest)
      | rest => atFirst rest .expectedListEnd

/-- Members of an object, the first key's quote read, up to the closing brace. A key that comes
again changes the value of its first occurrence. -/
def members (item : Reader Document) : Nat → Entries Document → Reader (Entries Document)
  | 0, _, _ => atEnd .endInObject
  | fuel + 1, es, cs =>
    match text cs with
    | .error e => .error e
    | .ok (key, rest) =>
      match skipSpace rest with
      | [] => atEnd .endInObject
      | ':' :: rest =>
        match item rest with
        | .error e => .error e
        | .ok (d, rest) =>
          let es := es.put (String.ofList key) d
          match skipSpace rest with
          | [] => atEnd .endInObject
          | '\x7d' :: rest => .ok (es, rest)
          | ',' :: rest =>
            match skipSpace rest with
            | [] => atEnd .endInValue
            | '\x22' :: rest => members item fuel es rest
            | '\x7d' :: rest => before rest .trailingComma
            | rest => atFirst rest .keyNotText
          | rest => atFirst rest .expectedObjectEnd
      | rest => atFirst rest .expectedColon

/-- A list or an object after its opening bracket, with what is inside read by `item`. -/
def container (item : Reader Document) (opening : Char) : Reader Document := fun cs =>
  if opening = '[' then
    match skipSpace cs with
    | [] => atEnd .endInList
    | ']' :: rest => .ok (.list [], rest)
    | rest => (items item rest.length rest).map fun r => (.list r.1, r.2)
  else
    match skipSpace cs with
    | [] => atEnd .endInObject
    | '\x7d' :: rest => .ok (.object [], rest)
    | '\x22' :: rest => (members item (rest.length + 1) [] rest).map fun r => (.object r.1, r.2)
    | rest => atFirst rest .keyNotText

/-- A value, with the spaces before it; what is behind an opening bracket is left to `inside`. -/
def valueWith (inside : Char → Reader Document) : Reader Document := fun cs =>
  match skipSpace cs with
  | [] => atEnd .endInValue
  | c :: rest =>
    if c = 'n' then word .null ['u', 'l', 'l'] rest
    else if c = 't' then word (.boolean true) ['r', 'u', 'e'] rest
    else if c = 'f' then word (.boolean false) ['a', 'l', 's', 'e'] rest
    else if c = '\x22' then (text rest).map fun r => (.text (String.ofList r.1), r.2)
    else if c = '-' then (number true rest).map fun r => (.number r.1, r.2)
    else if c.isDigit then (number false (c :: rest)).map fun r => (.number r.1, r.2)
    else if c = '[' ∨ c = '\x7b' then inside c rest
    else atFirst (c :: rest) .expectedValue

/-- A value inside which lists and objects may nest `depth` deep. -/
def value : Nat → Reader Document
  | 0 => valueWith fun _ rest => before rest .tooDeep
  | depth + 1 => valueWith (container (value depth))

def maxDepth : Nat := 127

/-- The document of a JSON text, spaces around it allowed. -/
def read (s : String) : Except Error Document :=
  let cs := s.toList
  match value maxDepth cs with
  | .error e => .error (e.locate cs)
  | .ok (d, rest) =>
    match skipSpace rest with
    | [] => .ok d
    | rest => .error (Failure.locate cs ⟨.trailingCharacters, Text.byteCount rest - 1⟩)

end Json

end Rollout
