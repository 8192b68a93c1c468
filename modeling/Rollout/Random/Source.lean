import Rollout.Number.Binary64
import Rollout.Random.Keystream

/-! Sources of random numbers and the two draws made from them: a uniform number in `[0, 1)` and a
bucket below 100. The bucket is drawn by rejection, so that all are equally likely; the draw gives
up after a number of tries, since a source may go on with words that are all rejected. -/
namespace Rollout
set_option autoImplicit false

/-! ## Sources -/

/-- What yields random words of 32 and of 64 bits, one after the other. -/
class RandomSource (G : Type) where
  word : G → UInt32 × G
  wide : G → UInt64 × G

/-- The sources at hand: numbers with a fixed step, for tests, and a seeded stream. -/
inductive Generator where
  | stepping (next increment : UInt64)
  | stream (s : Random.Keystream)
  deriving DecidableEq

namespace Generator

def seeded (seed : UInt64) : Generator := stream (Random.Keystream.seeded seed)

/-- 64 bits: the next number of the step, or two words of the stream, the low one first. -/
def wide : Generator → UInt64 × Generator
  | stepping n i => (n, stepping (n + i) i)
  | stream s =>
    let (low, s) := s.next
    let (high, s) := s.next
    ((high.toUInt64 <<< 32) ||| low.toUInt64, stream s)

/-- 32 bits: the low half of the next number of the step, or the next word of the stream. -/
def word : Generator → UInt32 × Generator
  | stepping n i => (n.toUInt32, stepping (n + i) i)
  | stream s => let (w, s) := s.next; (w, stream s)

instance : RandomSource Generator := ⟨word, wide⟩

end Generator

/-! ## Draws -/

namespace Random

/-- The uniform number of 64 bits: their 53 high bits as a multiple of `2 ^ -53`. -/
def uniformOf (x : UInt64) : Binary64 :=
  Binary64.ofRatio (x.toNat / 2048) 9007199254740992
    (Nat.lt_of_le_of_lt (Nat.div_le_self _ _) x.toNat_lt)

/-- A uniform draw takes 64 bits. -/
def uniform {G : Type} [RandomSource G] (g : G) : Binary64 × G :=
  (uniformOf (RandomSource.wide g).1, (RandomSource.wide g).2)

/-- The greatest low half with which a word is accepted. Every bucket has as many accepted
words. -/
def acceptance : Nat := 3355443199

/-- The bucket of an accepted word: the high half of a hundred times the word. -/
def bucket? (w : UInt32) : Option (Fin 100) :=
  if w.toNat * 100 % 4294967296 ≤ acceptance then
    some ⟨w.toNat * 100 / 4294967296, by
      have h := w.toNat_lt
      omega⟩
  else none

/-- The bucket of the first accepted word, looked for `tries` times. -/
def drawBucket {G : Type} [RandomSource G] : Nat → G → Option (Fin 100 × G)
  | 0, _ => none
  | tries + 1, g =>
    match bucket? (RandomSource.word g).1 with
    | some b => some (b, (RandomSource.word g).2)
    | none => drawBucket tries (RandomSource.word g).2

end Random

end Rollout
