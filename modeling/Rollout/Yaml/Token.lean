import Rollout.Yaml.Scalar
import Rollout.Yaml.Tag

/-! Tokens of a YAML text and the lexer that finds them. Columns decide where block collections
start and end, and a key is known as one only when the colon after it comes: the lexer remembers
where a key may have started, on each level of brackets, and puts the tokens for it there
afterwards. `none` stands for a text that is not YAML. -/
namespace Rollout
set_option autoImplicit false

namespace Yaml

inductive Token where
  | documentStart
  | documentEnd
  | version (major minor : Nat)
  | tagHandle (handle : List Char) (lead : Tag)
  | blockSequence
  | blockMapping
  | blockEnd
  | flowSequence
  | flowSequenceEnd
  | flowMapping
  | flowMappingEnd
  | blockEntry
  | flowEntry
  | key
  | value
  | reference (name : List Char)
  | anchor (name : List Char)
  | tag (handle : List Char) (suffix : Tag)
  | scalar (text : List Char) (isPlain : Bool)
  deriving DecidableEq, Repr

/-! ## Names, tags and directives -/

/-- The name of an anchor or of a reference to one, after its indicator. -/
def anchorName (cur : Cursor) : Option (List Char × Cursor) :=
  let name := cur.rest.takeWhile isNameChar
  let next := cur.advance name.length
  let ends := endsWord next.rest || next.rest.head?.any fun c =>
    c = '?' || c = ':' || c = ',' || c = ']' || c = '\x7d' || c = '%' || c = '@' || c = '\x60'
  if name = [] || !ends then none else some (name, next)

/-- Two hexadecimal digits after a percent sign, as a byte. -/
def octet? : List Char → Option Nat
  | '%' :: a :: b :: _ => Text.hexNumber? [a, b]
  | _ => none

def octets : Nat → Cursor → Option (List UInt8 × Cursor)
  | 0, cur => some ([], cur)
  | count + 1, cur => do
    let b ← octet? cur.rest
    if b / 0x40 ≠ 2 then none
    else
      let (bs, cur) ← octets count (cur.advance 3)
      return (UInt8.ofNat b :: bs, cur)

/-- The escaped bytes of a character of a tag. The first byte says how many follow it; that is all
that is asked of them, so they need not be UTF-8. -/
def escapedOctets (cur : Cursor) : Option (List UInt8 × Cursor) := do
  let b ← octet? cur.rest
  let more ← if b < 0x80 then some 0 else if b / 0x20 = 6 then some 1
    else if b / 0x10 = 14 then some 2 else if b / 0x08 = 30 then some 3 else none
  let (bs, cur) ← octets more (cur.advance 3)
  return (UInt8.ofNat b :: bs, cur)

/-- The characters of a tag; verbatim ones may hold commas and square brackets. -/
def isTagChar (verbatim : Bool) (c : Char) : Bool :=
  isNameChar c || [';', '/', '?', ':', '@', '&', '=', '+', '$', '.', '%', '!', '~', '*', '\x27',
    '(', ')'].contains c || (verbatim && (c = ',' || c = '[' || c = ']'))

def tagBytes (verbatim : Bool) : Nat → Cursor → List UInt8 → Option (List UInt8 × Cursor)
  | 0, _, _ => none
  | fuel + 1, cur, bytes =>
    match cur.rest with
    | [] => some (bytes, cur)
    | c :: _ =>
      if !isTagChar verbatim c then some (bytes, cur)
      else if c = '%' then
        match escapedOctets cur with
        | none => none
        | some (bs, next) => tagBytes verbatim fuel next (bytes ++ bs)
      else tagBytes verbatim fuel (cur.advance 1) (bytes ++ String.utf8EncodeChar c)

/-- A part of a tag that may not be left out. -/
def tagPart? (verbatim : Bool) (cur : Cursor) : Option (Tag × Cursor) := do
  let (bytes, next) ← tagBytes verbatim (cur.rest.length + 1) cur []
  if bytes = [] then none else return (Tag.ofBytes bytes, next)

/-- An exclamation mark, name characters and perhaps a second exclamation mark. -/
def tagHandleText (cur : Cursor) : Option (List Char × Cursor) :=
  match cur.rest with
  | '!' :: rest =>
    let name := rest.takeWhile isNameChar
    if (rest.drop name.length).head? = some '!' then
      some ('!' :: name ++ ['!'], cur.advance (name.length + 2))
    else some ('!' :: name, cur.advance (name.length + 1))
  | _ => none

/-- A tag as a handle and a suffix; the handle of a verbatim tag is empty, as is the one of the
lone exclamation mark. -/
def tagToken (flow : Bool) (cur : Cursor) : Option (Token × Cursor) := do
  let (token, next) ←
    if (cur.rest.drop 1).head? = some '<' then do
      let (suffix, next) ← tagPart? true (cur.advance 2)
      if next.rest.head? = some '>' then some (Token.tag [] suffix, next.advance 1) else none
    else do
      let (handle, next) ← tagHandleText cur
      if 1 < handle.length ∧ handle.getLast? = some '!' then
        let (suffix, next) ← tagPart? false next
        some (Token.tag handle suffix, next)
      else
        let name := (handle.drop 1).flatMap String.utf8EncodeChar
        let (bytes, next) ← tagBytes false (next.rest.length + 1) next name
        let suffix := Tag.ofBytes bytes
        some (if suffix = [] then Token.tag [] Tag.mark else Token.tag ['!'] suffix, next)
  if endsWord next.rest || (flow && next.rest.head? = some ',') then some (token, next) else none

/-- A number of a version: one to nine digits. -/
def versionNumber (cur : Cursor) : Option (Nat × Cursor) :=
  let ds := cur.rest.takeWhile Char.isDigit
  if ds = [] || 9 < ds.length then none
  else some (ds.foldl (fun n d => n * 10 + (d.toNat - 0x30)) 0, cur.advance ds.length)

def directive (cur : Cursor) : Option (Token × Cursor) := do
  let name := cur.rest.takeWhile isNameChar
  let cur := cur.advance name.length
  if name = [] || !endsWord cur.rest then none
  else
    let (token, cur) ←
      if name = ['Y', 'A', 'M', 'L'] then do
        let (major, cur) ← versionNumber (cur.skipWhile isSpace)
        if cur.rest.head? ≠ some '.' then none
        else
          let (minor, cur) ← versionNumber (cur.advance 1)
          some (Token.version major minor, cur)
      else if name = ['T', 'A', 'G'] then do
        let (handle, cur) ← tagHandleText (cur.skipWhile isSpace)
        if handle.getLast? ≠ some '!' || !cur.rest.head?.any isSpace then none
        else
          let (lead, cur) ← tagPart? true (cur.skipWhile isSpace)
          if endsWord cur.rest then some (Token.tagHandle handle lead, cur) else none
      else none
    let cur := cur.skipWhile isSpace
    let cur := if cur.rest.head? = some '#' then cur.skipWhile fun c => !isBreak c else cur
    if !endsLine cur.rest then none
    else
      match cur.lineBreak? with
      | some (_, next) => some (token, next)
      | none => some (token, cur)

/-! ## Lexing -/

/-- A place where a key may have started, and whether it has to be one. -/
structure KeyStart where
  required : Bool
  token : Nat
  bytes : Nat
  line : Nat
  column : Nat

/-- The state of the lexer: the tokens so far, the columns of the open block collections, the
number of open brackets, whether a key may start here, and where one may have started on each
level of brackets, the innermost first. -/
structure Lexer where
  cur : Cursor
  tokens : Array Token
  indent : Int
  outer : List Int
  flow : Nat
  keyAllowed : Bool
  keys : List (Option KeyStart)

namespace Lexer

def start (cs : List Char) : Lexer := ⟨Cursor.ofText cs, #[], -1, [], 0, true, [none]⟩

def push (lx : Lexer) (t : Token) : Lexer := { lx with tokens := lx.tokens.push t }

/-- Pushes a token that `n` characters of the line make. -/
def pushChars (lx : Lexer) (t : Token) (n : Nat) : Lexer :=
  { lx with tokens := lx.tokens.push t, cur := lx.cur.advance n }

/-- Puts a token before the one with number `i`. -/
def insert (lx : Lexer) (i : Nat) (t : Token) : Lexer :=
  { lx with tokens := lx.tokens.insertIdxIfInBounds i t }

/-- Forgets the key start of the innermost level, unless a key has to start there. -/
def dropKey (lx : Lexer) : Option Lexer :=
  match lx.keys with
  | some k :: rest => if k.required then none else some { lx with keys := none :: rest }
  | _ => some lx

/-- Remembers that a key may start here. In block context one has to start at the column of the
open collection. -/
def saveKey (lx : Lexer) : Option Lexer :=
  if !lx.keyAllowed then some lx
  else do
    let lx ← lx.dropKey
    let k : KeyStart := ⟨lx.flow = 0 && lx.indent = lx.cur.column, lx.tokens.size, lx.cur.bytes,
      lx.cur.line, lx.cur.column⟩
    return { lx with keys := some k :: lx.keys.drop 1 }

/-- Forgets the key starts from which no key can come any more: a key stays on its line and within
1024 bytes. -/
def dropStale (lx : Lexer) : Option Lexer := do
  let keys ← lx.keys.mapM fun k? =>
    match k? with
    | none => some none
    | some k =>
      if k.line < lx.cur.line || k.bytes + 1024 < lx.cur.bytes then
        if k.required then none else some none
      else some (some k)
  return { lx with keys := keys }

/-- Ends the block collections that lie right of a column. -/
def unroll (lx : Lexer) (column : Int) : Lexer :=
  if lx.flow ≠ 0 then lx
  else
    let all := lx.indent :: lx.outer
    let kept := all.dropWhile fun i => column < i
    { lx with
      tokens := lx.tokens ++ List.replicate (all.length - kept.length) Token.blockEnd
      indent := kept.headD (-1)
      outer := kept.drop 1 }

/-- Starts a block collection if the column lies right of the open one; its token goes before the
one with number `i` if that is given. -/
def roll (lx : Lexer) (column : Int) (i : Option Nat) (t : Token) : Lexer :=
  if lx.flow ≠ 0 || column ≤ lx.indent then lx
  else
    let lx := match i with
      | some i => lx.insert i t
      | none => lx.push t
    { lx with indent := column, outer := lx.indent :: lx.outer }

/-- Moves to the next token, past blanks, comments and line breaks. A byte order mark may start a
line and takes a column there. In block context a tab is no blank where a key may start, and a new
line lets one start. -/
def toNextToken : Nat → Lexer → Option Lexer
  | 0, _ => none
  | fuel + 1, lx =>
    let cur := lx.cur
    let cur := if cur.column = 0 && cur.rest.head? = some '\ufeff' then cur.advance 1 else cur
    let cur := cur.skipWhile fun c => c = ' ' || (c = '\t' && (lx.flow ≠ 0 || !lx.keyAllowed))
    let cur := if cur.rest.head? = some '#' then cur.skipWhile fun c => !isBreak c else cur
    match cur.lineBreak? with
    | some (_, next) =>
      toNextToken fuel { lx with cur := next, keyAllowed := lx.keyAllowed || lx.flow = 0 }
    | none => some { lx with cur := cur }

/-- A directive or document marker closes all that is open. -/
def closeAll (lx : Lexer) : Option Lexer := do
  let lx ← (lx.unroll (-1)).dropKey
  return { lx with keyAllowed := false }

def openFlow (lx : Lexer) (t : Token) : Option Lexer := do
  let lx ← lx.saveKey
  return { lx.pushChars t 1 with flow := lx.flow + 1, keyAllowed := true, keys := none :: lx.keys }

def closeFlow (lx : Lexer) (t : Token) : Option Lexer := do
  let lx ← lx.dropKey
  return { lx.pushChars t 1 with
    flow := lx.flow - 1
    keyAllowed := false
    keys := if lx.flow = 0 then lx.keys else lx.keys.drop 1 }

def flowEntry (lx : Lexer) : Option Lexer := do
  let lx ← lx.dropKey
  return { lx.pushChars .flowEntry 1 with keyAllowed := true }

def blockEntry (lx : Lexer) : Option Lexer :=
  if lx.flow = 0 && !lx.keyAllowed then none
  else do
    let lx ← (lx.roll lx.cur.column none .blockSequence).dropKey
    return { lx.pushChars .blockEntry 1 with keyAllowed := true }

def explicitKey (lx : Lexer) : Option Lexer :=
  if lx.flow = 0 && !lx.keyAllowed then none
  else do
    let lx ← (lx.roll lx.cur.column none .blockMapping).dropKey
    return { lx.pushChars .key 1 with keyAllowed := lx.flow = 0 }

/-- A colon: where a key may have started, one has, and its token is put there. -/
def value (lx : Lexer) : Option Lexer :=
  match lx.keys with
  | some k :: rest =>
    let lx := (lx.insert k.token .key).roll k.column (some k.token) .blockMapping
    some { lx.pushChars .value 1 with keys := none :: rest, keyAllowed := false }
  | _ =>
    if lx.flow = 0 && !lx.keyAllowed then none
    else
      let lx := lx.roll lx.cur.column none .blockMapping
      some { lx.pushChars .value 1 with keyAllowed := lx.flow = 0 }

/-- A token that may be a key, read by `scan`. -/
def keyLike (lx : Lexer) (scan : Lexer → Option (Token × Bool × Cursor)) : Option Lexer := do
  let lx ← lx.saveKey
  let (t, allowed, cur) ← scan lx
  return { lx.push t with cur := cur, keyAllowed := allowed }

def plainScalar (lx : Lexer) : Option (Token × Bool × Cursor) := do
  let (text, broke, cur) ←
    plain (lx.flow ≠ 0) (lx.indent + 1) (lx.cur.rest.length + 1) lx.cur [] Gap.empty
  return (.scalar text true, broke, cur)

def quotedScalar (single : Bool) (lx : Lexer) : Option (Token × Bool × Cursor) := do
  let cur := lx.cur.advance 1
  let (text, cur) ← quoted single (cur.rest.length + 1) cur []
  return (.scalar text false, false, cur)

def named (t : List Char → Token) (lx : Lexer) : Option (Token × Bool × Cursor) := do
  let (name, cur) ← anchorName (lx.cur.advance 1)
  return (t name, false, cur)

def tagged (lx : Lexer) : Option (Token × Bool × Cursor) := do
  let (t, cur) ← tagToken (lx.flow ≠ 0) lx.cur
  return (t, false, cur)

def blockScalar (lx : Lexer) (literal : Bool) : Option Lexer := do
  let lx ← lx.dropKey
  let (text, cur) ← block literal lx.indent (lx.cur.advance 1)
  return { lx.push (.scalar text false) with cur := cur, keyAllowed := true }

/-- Characters that start no plain scalar, or not every one. -/
def isIndicator (c : Char) : Bool :=
  ['-', '?', ':', ',', '[', ']', '\x7b', '\x7d', '#', '&', '*', '!', '|', '>', '\x27', '\x22',
    '%', '@', '\x60'].contains c

/-- The token that starts with `c`, the character ahead, `rest` being what follows it. -/
def token (lx : Lexer) (c : Char) (rest : List Char) : Option Lexer :=
  if lx.cur.column = 0 && c = '%' then do
    let lx ← lx.closeAll
    let (t, cur) ← directive (lx.cur.advance 1)
    return { lx.push t with cur := cur }
  else if lx.cur.atMarker then do
    let lx ← lx.closeAll
    return lx.pushChars (if c = '-' then .documentStart else .documentEnd) 3
  else if c = '[' then lx.openFlow .flowSequence
  else if c = '\x7b' then lx.openFlow .flowMapping
  else if c = ']' then lx.closeFlow .flowSequenceEnd
  else if c = '\x7d' then lx.closeFlow .flowMappingEnd
  else if c = ',' then lx.flowEntry
  else if c = '-' && endsWord rest then lx.blockEntry
  else if c = '?' && (lx.flow ≠ 0 || endsWord rest) then lx.explicitKey
  else if c = ':' && (lx.flow ≠ 0 || endsWord rest) then lx.value
  else if c = '*' then lx.keyLike (named .reference)
  else if c = '&' then lx.keyLike (named .anchor)
  else if c = '!' then lx.keyLike tagged
  else if c = '|' && lx.flow = 0 then lx.blockScalar true
  else if c = '>' && lx.flow = 0 then lx.blockScalar false
  else if c = '\x27' then lx.keyLike (quotedScalar true)
  else if c = '\x22' then lx.keyLike (quotedScalar false)
  else if (!isIndicator c && !isSpace c) || c = '-' || (lx.flow = 0 && (c = '?' || c = ':')) then
    lx.keyLike plainScalar
  else none

/-- Lexes to the end of the text. Every turn takes a character, so the length of the text is
enough fuel. -/
def run : Nat → Lexer → Option (List Token)
  | 0, _ => none
  | fuel + 1, lx => do
    let lx ← lx.toNextToken (lx.cur.rest.length + 1)
    let lx ← lx.dropStale
    let lx := lx.unroll lx.cur.column
    match lx.cur.rest with
    | [] => (lx.unroll (-1)).dropKey.map fun lx => lx.tokens.toList
    | c :: rest =>
      match lx.token c rest with
      | none => none
      | some lx => run fuel lx

end Lexer

def Token.ofText? (cs : List Char) : Option (List Token) :=
  if cs.all isReadable then Lexer.run (cs.length + 1) (Lexer.start cs) else none

end Yaml

end Rollout
