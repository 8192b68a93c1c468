import Rollout.Text.Hex
import Rollout.Yaml.Cursor

/-! The three ways to write a scalar: plain, in quotes, and as a block. Line breaks inside plain
and quoted scalars are folded: one break is a space, and of several the first is dropped. `none`
stands for a text that is not YAML. Fuel is the number of characters ahead, since every turn of a
loop takes one. -/
namespace Rollout
set_option autoImplicit false

namespace Yaml

/-! ## Gaps between words -/

/-- What lies between two words: the blanks while no line broke, then the first break and the
breaks after it. -/
structure Gap where
  spaces : List Char
  first : List Char
  more : List Char
  broke : Bool

namespace Gap

def empty : Gap := ⟨[], [], [], false⟩

/-- What a gap counts for: its blanks, or its breaks after folding. -/
def text (g : Gap) : List Char :=
  if !g.broke then g.spaces
  else if g.first = ['\n'] then (if g.more = [] then [' '] else g.more)
  else g.first ++ g.more

/-- Takes the blanks and breaks ahead. On a later line a tab before column `limit` is refused. -/
def take (limit : Int) : Nat → Cursor → Gap → Option (Gap × Cursor)
  | 0, _, _ => none
  | fuel + 1, cur, g =>
    match cur.rest with
    | [] => some (g, cur)
    | c :: _ =>
      if isSpace c then
        if g.broke && c = '\t' && (cur.column : Int) < limit then none
        else take limit fuel (cur.advance 1)
          (if g.broke then g else { g with spaces := g.spaces ++ [c] })
      else
        match cur.lineBreak? with
        | some (b, next) =>
          take limit fuel next
            (if g.broke then { g with more := g.more ++ [b] } else ⟨[], [b], g.more, true⟩)
        | none => some (g, cur)

end Gap

/-! ## Plain scalars -/

def isFlowIndicator (c : Char) : Bool :=
  c = ',' || c = '[' || c = ']' || c = '\x7b' || c = '\x7d'

/-- A word of a plain scalar ends at a blank, at a colon that ends it and, inside brackets, at a
flow indicator; there a colon right before one is refused. -/
def plainWord (flow : Bool) : List Char → Option (List Char)
  | [] => some []
  | c :: rest =>
    if isSpace c || isBreak c then some []
    else if flow && c = ':' && (rest.head?.any fun d => isFlowIndicator d || d = '?') then none
    else if (c = ':' && endsWord rest) || (flow && isFlowIndicator c) then some []
    else (plainWord flow rest).map (c :: ·)

/-- A plain scalar: its words with the folded gaps between them, and whether a line broke after
the last one. In block context it ends with the first line that starts before column `indent`. -/
def plain (flow : Bool) (indent : Int) : Nat → Cursor → List Char → Gap →
    Option (List Char × Bool × Cursor)
  | 0, _, _, _ => none
  | fuel + 1, cur, text, gap =>
    if cur.atMarker || cur.rest.head? = some '#' then some (text, gap.broke, cur)
    else
      match plainWord flow cur.rest with
      | none => none
      | some [] => some (text, gap.broke, cur)
      | some (c :: cs) =>
        let text := text ++ gap.text ++ c :: cs
        let cur := cur.advance (cs.length + 1)
        if cur.rest = [] || !endsWord cur.rest then some (text, false, cur)
        else
          match Gap.take indent (cur.rest.length + 1) cur Gap.empty with
          | none => none
          | some (gap, cur) =>
            if !flow && (cur.column : Int) < indent then some (text, gap.broke, cur)
            else plain flow indent fuel cur text gap

/-! ## Quoted scalars -/

/-- The character that a letter after the backslash stands for. -/
def escaped? (c : Char) : Option Char :=
  if c = '0' then some '\x00'
  else if c = 'a' then some '\x07'
  else if c = 'b' then some '\x08'
  else if c = 't' ∨ c = '\t' then some '\t'
  else if c = 'n' then some '\n'
  else if c = 'v' then some '\x0b'
  else if c = 'f' then some '\x0c'
  else if c = 'r' then some '\r'
  else if c = 'e' then some '\x1b'
  else if c = ' ' ∨ c = '\x22' ∨ c = '/' ∨ c = '\x5c' then some c
  else if c = 'N' then some '\u0085'
  else if c = '_' then some '\u00a0'
  else if c = 'L' then some '\u2028'
  else if c = 'P' then some '\u2029'
  else none

/-- How many hexadecimal digits follow a letter after the backslash. -/
def codeWidth? (c : Char) : Option Nat :=
  if c = 'x' then some 2 else if c = 'u' then some 4 else if c = 'U' then some 8 else none

/-- The character with a code of `width` hexadecimal digits; surrogates are none. -/
def coded? (width : Nat) (cs : List Char) : Option Char :=
  if (cs.take width).length < width then none
  else
    match Text.hexNumber? (cs.take width) with
    | none => none
    | some n => if h : n.isValidChar then some (Char.ofNatAux n h) else none

/-- A word inside quotes, up to a blank, a break or the closing quote, and whether it ended with
an escaped line break, which is then behind. -/
def quotedWord (single : Bool) : Nat → Cursor → List Char → Option (List Char × Bool × Cursor)
  | 0, _, _ => none
  | fuel + 1, cur, text =>
    match cur.rest with
    | [] => some (text, false, cur)
    | c :: more =>
      if isSpace c || isBreak c then some (text, false, cur)
      else if single && c = '\x27' then
        if more.head? = some '\x27' then quotedWord single fuel (cur.advance 2) (text ++ [c])
        else some (text, false, cur)
      else if !single && c = '\x22' then some (text, false, cur)
      else if !single && c = '\x5c' then
        match (cur.advance 1).lineBreak? with
        | some (_, next) => some (text, true, next)
        | none =>
          match more with
          | [] => none
          | e :: code =>
            match escaped? e, codeWidth? e with
            | some d, _ => quotedWord single fuel (cur.advance 2) (text ++ [d])
            | none, some width =>
              match coded? width code with
              | some d => quotedWord single fuel (cur.advance (2 + width)) (text ++ [d])
              | none => none
            | none, none => none
      else quotedWord single fuel (cur.advance 1) (text ++ [c])

/-- A quoted scalar after its opening quote. Document markers and the end of the text may not come
before the closing one. -/
def quoted (single : Bool) : Nat → Cursor → List Char → Option (List Char × Cursor)
  | 0, _, _ => none
  | fuel + 1, cur, text =>
    if cur.atMarker || cur.rest = [] then none
    else
      match quotedWord single (cur.rest.length + 1) cur text with
      | none => none
      | some (text, broke, cur) =>
        if cur.rest.head? = some (if single then '\x27' else '\x22') then
          some (text, cur.advance 1)
        else
          match Gap.take 0 (cur.rest.length + 1) cur { Gap.empty with broke := broke } with
          | none => none
          | some (gap, cur) => quoted single fuel cur (text ++ gap.text)

/-! ## Block scalars -/

/-- What becomes of the line breaks at the end of a block. -/
inductive Chomping where
  | strip
  | clip
  | keep
  deriving DecidableEq

/-- A chomping sign and an indentation digit in either order, both optional. -/
def blockHeader (cs : List Char) : Option (Chomping × Nat × Nat) :=
  let sign (c : Char) : Option Chomping :=
    if c = '+' then some .keep else if c = '-' then some .strip else none
  match cs with
  | [] => some (.clip, 0, 0)
  | c :: rest =>
    match sign c with
    | some chomping =>
      match rest with
      | d :: _ =>
        if !d.isDigit then some (chomping, 0, 1)
        else if d = '0' then none
        else some (chomping, d.toNat - 0x30, 2)
      | [] => some (chomping, 0, 1)
    | none =>
      if !c.isDigit then some (.clip, 0, 0)
      else if c = '0' then none
      else
        match rest.head?.bind sign with
        | some chomping => some (chomping, c.toNat - 0x30, 2)
        | none => some (.clip, c.toNat - 0x30, 1)

/-- Takes the indentation and the empty lines ahead: the breaks, the widest indentation seen, and
the cursor. With an indentation of zero, one still to be found, all spaces are taken. A tab in
place of indentation is refused. -/
def blockBreaks (indent : Nat) : Nat → Cursor → Nat → List Char → Option (List Char × Nat × Cursor)
  | 0, _, _, _ => none
  | fuel + 1, cur, widest, breaks =>
    let spaces := (cur.rest.takeWhile (· = ' ')).length
    let cur := cur.advance (if indent = 0 then spaces else min spaces (indent - cur.column))
    let widest := max widest cur.column
    if (indent = 0 || cur.column < indent) && cur.rest.head? = some '\t' then none
    else
      match cur.lineBreak? with
      | some (b, next) => blockBreaks indent fuel next widest (breaks ++ [b])
      | none => some (breaks, widest, cur)

/-- The lines of a block at column `indent`. `first` and `more` are the breaks since the last line
and `blank` tells whether that line starts with a blank. Breaks between two lines that start with
none are folded unless the block is literal. -/
def blockLines (literal : Bool) (indent : Nat) : Nat → Cursor → List Char → List Char → List Char →
    Bool → Option (List Char × List Char × List Char × Cursor)
  | 0, _, _, _, _, _ => none
  | fuel + 1, cur, text, first, more, blank =>
    match cur.rest with
    | [] => some (text, first, more, cur)
    | c :: _ =>
      if cur.column ≠ indent then some (text, first, more, cur)
      else
        let folds := !literal && first = ['\n'] && !blank && !isSpace c
        let joint := if folds then (if more = [] then [' '] else []) else first
        let line := cur.rest.takeWhile fun d => !isBreak d
        let text := text ++ joint ++ more ++ line
        let cur := cur.advance line.length
        let (first, cur) := match cur.lineBreak? with
          | some (b, next) => ([b], next)
          | none => ([], cur)
        match blockBreaks indent (cur.rest.length + 1) cur 0 [] with
        | none => none
        | some (more, _, cur) => blockLines literal indent fuel cur text first more (isSpace c)

/-- A block scalar after its indicator, inside a block at column `outer`. -/
def block (literal : Bool) (outer : Int) (cur : Cursor) : Option (List Char × Cursor) :=
  match blockHeader cur.rest with
  | none => none
  | some (chomping, increment, width) =>
    let cur := (cur.advance width).skipWhile isSpace
    let cur := if cur.rest.head? = some '#' then cur.skipWhile fun c => !isBreak c else cur
    if !endsLine cur.rest then none
    else
      let cur := match cur.lineBreak? with
        | some (_, next) => next
        | none => cur
      let given := if increment = 0 then 0
        else if 0 ≤ outer then outer.toNat + increment else increment
      match blockBreaks given (cur.rest.length + 1) cur 0 [] with
      | none => none
      | some (more, widest, cur) =>
        let indent := if given = 0 then max (max widest (outer + 1).toNat) 1 else given
        match blockLines literal indent (cur.rest.length + 1) cur [] [] more false with
        | none => none
        | some (text, first, more, cur) =>
          some (text ++ (if chomping = .strip then [] else first) ++
            (if chomping = .keep then more else []), cur)

end Yaml

end Rollout
