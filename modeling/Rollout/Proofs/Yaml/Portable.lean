import Rollout.Proofs.Json.Written
import Rollout.Yaml.Reader

/-! # JSON texts that are YAML texts

Most JSON texts are YAML texts of the same document. What stands in the way is written in them: a
line break that only YAML knows, a name too long or too far from its colon, a tab where YAML wants
spaces, a character that YAML does not let in, and numbers that the two readers take for different
ones. A portable text has none of these. It may still have a pair of escaped surrogates, which is one
character in JSON and none in YAML. -/
namespace Rollout
set_option autoImplicit false

namespace Json

namespace Piece

/-- No line break, which YAML takes for a blank. -/
def Portable : Piece → Prop
  | plain c _ => Yaml.isBreak c = false
  | _ => True

def isPair : Piece → Bool
  | pair _ _ _ => true
  | _ => false

end Piece

namespace Numeral

/-- The value with all its digits. -/
def exact (x : Numeral) : Decimal :=
  ⟨natOf (x.whole.chars ++ x.tail.digits),
    (x.tail.exponent?.map Exponent.value).getD 0 - x.tail.digits.length⟩

/-- The number is the one nearest to the value. -/
def RoundsOnce (x : Numeral) : Prop :=
  x.number? = (x.exact.toBinary64? x.negative).map Number.real

/-- The integer that the digits before the point spell. -/
def integer (x : Numeral) : Int := signed x.negative (natOf x.whole.chars)

/-- An integer that 64 bits hold, but for minus zero, or one past 128 bits or a number with a point
or an exponent that is rounded once. -/
def Portable (x : Numeral) : Prop :=
  match x.tail with
  | .integer =>
    ((Number.ofInt? x.integer).isSome ∧ ¬(x.negative = true ∧ natOf x.whole.chars = 0)) ∨
      (Number.ofInt? x.integer = none ∧ ¬(-(twoTo 127 : Int) ≤ x.integer ∧ x.integer < twoTo 128) ∧
        x.RoundsOnce)
  | _ => x.RoundsOnce

end Numeral

namespace Scalar

/-- Written without quotes. -/
def isPlain : Scalar → Bool
  | text _ => false
  | _ => true

def Portable : Scalar → Prop
  | text ps => ∀ p ∈ ps, p.Portable
  | number x _ _ => x.Portable
  | _ => True

end Scalar

/-- The name and its colon stand on one line, within the 1024 bytes that YAML looks back. -/
structure Key.Portable (k : Key) : Prop where
  pieces : ∀ p ∈ k.pieces, p.Portable
  line : ∀ c ∈ k.gap.chars, Yaml.isBreak c = false
  short : Text.byteCount ('\x22' :: (spelled k.pieces ++ k.gap.chars)) ≤ 1024

mutual

def Written.Portable : Written → Prop
  | .scalar x => x.Portable
  | .emptyList _ => True
  | .list _ items => items.Portable
  | .emptyObject _ => True
  | .object _ members => members.Portable

def Items.Portable : Items → Prop
  | .last w _ => w.Portable
  | .cons w _ _ rest => w.Portable ∧ rest.Portable

def Members.Portable : Members → Prop
  | .last key _ w _ => key.Portable ∧ w.Portable
  | .cons key _ w _ _ rest => key.Portable ∧ w.Portable ∧ rest.Portable

end

/-- The value is written without quotes or brackets. -/
def Written.isPlain : Written → Bool
  | .scalar x => x.isPlain
  | _ => false

/-! ## Pairs of surrogates -/

def Scalar.hasPair : Scalar → Bool
  | text ps => ps.any Piece.isPair
  | _ => false

def Key.hasPair (k : Key) : Bool := k.pieces.any Piece.isPair

mutual

/-- A name or a text in it has a character that is escaped as a pair of surrogates. -/
def Written.hasPair : Written → Bool
  | .scalar x => x.hasPair
  | .emptyList _ => false
  | .list _ items => items.hasPair
  | .emptyObject _ => false
  | .object _ members => members.hasPair

def Items.hasPair : Items → Bool
  | .last w _ => w.hasPair
  | .cons w _ _ rest => w.hasPair || rest.hasPair

def Members.hasPair : Members → Bool
  | .last key _ w _ => key.hasPair || w.hasPair
  | .cons key _ w _ _ rest => key.hasPair || (w.hasPair || rest.hasPair)

end

def Page.hasPair (p : Page) : Bool := p.value.hasPair

/-! ## Texts -/

/-- A text that YAML reads as JSON does, pairs of surrogates apart. -/
structure Page.Portable (p : Page) : Prop where
  readable : ∀ c ∈ p.chars, Yaml.isReadable c = true
  lead : '\t' ∉ p.lead.chars
  trail : p.value.isPlain = true ∨ '\t' ∉ p.trail.chars.dropWhile fun c => !Yaml.isBreak c
  value : p.value.Portable

end Json

end Rollout
