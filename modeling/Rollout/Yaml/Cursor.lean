import Rollout.Text.Units

/-! A place in a YAML text: the characters ahead and how much lies behind, in bytes, lines and the
columns of the current line. YAML is laid out by columns, each a character wide, so its readers
carry a cursor. -/
namespace Rollout
set_option autoImplicit false

namespace Yaml

/-! ## Characters -/

/-- Line breaks: line feed, carriage return, next line, line and paragraph separator. -/
def isBreak (c : Char) : Bool :=
  c = '\n' || c = '\r' || c = '\u0085' || c = '\u2028' || c = '\u2029'

def isSpace (c : Char) : Bool := c = ' ' || c = '\t'

def isNameChar (c : Char) : Bool := c.isAlphanum || c = '_' || c = '-'

/-- The text ends here, or a blank or a line break comes. -/
def endsWord : List Char → Bool
  | [] => true
  | c :: _ => isSpace c || isBreak c

def endsLine : List Char → Bool
  | [] => true
  | c :: _ => isBreak c

/-- The characters that a text may hold: tab, the line breaks and what is printable. -/
def isReadable (c : Char) : Bool :=
  let n := c.toNat
  n = 0x09 || n = 0x0a || n = 0x0d || (0x20 ≤ n && n ≤ 0x7e) || n = 0x85 ||
    (0xa0 ≤ n && n ≤ 0xd7ff) || (0xe000 ≤ n && n ≤ 0xfffd) || 0x10000 ≤ n

/-! ## Cursors -/

structure Cursor where
  rest : List Char
  bytes : Nat
  line : Nat
  column : Nat

namespace Cursor

def ofText (cs : List Char) : Cursor := ⟨cs, 0, 0, 0⟩

/-- Moves past `n` characters of the line. -/
def advance (cur : Cursor) (n : Nat) : Cursor :=
  ⟨cur.rest.drop n, cur.bytes + Text.byteCount (cur.rest.take n), cur.line, cur.column + n⟩

/-- Moves past the characters with a property; none of them may be a line break. -/
def skipWhile (cur : Cursor) (p : Char → Bool) : Cursor :=
  cur.advance (cur.rest.takeWhile p).length

/-- The line break ahead and the start of the next line. Carriage return and line feed together
are one break; all breaks but the two separators count as line feeds. -/
def lineBreak? (cur : Cursor) : Option (Char × Cursor) :=
  match cur.rest with
  | '\r' :: '\n' :: rest => some ('\n', ⟨rest, cur.bytes + 2, cur.line + 1, 0⟩)
  | c :: rest =>
    if isBreak c then
      some (if c = '\u2028' ∨ c = '\u2029' then c else '\n',
        ⟨rest, cur.bytes + c.utf8Size, cur.line + 1, 0⟩)
    else none
  | [] => none

/-- A document marker is ahead: three hyphens or three dots that start a line and end a word. -/
def atMarker (cur : Cursor) : Bool :=
  cur.column = 0 &&
    match cur.rest with
    | a :: b :: c :: rest => a = b && b = c && (a = '-' || a = '.') && endsWord rest
    | _ => false

end Cursor

end Yaml

end Rollout
