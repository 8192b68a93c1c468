/-! A stream of 32-bit words from a 64-bit seed: ChaCha with twelve rounds and a 64-bit block
counter, its key drawn from the seed by a permuted congruential generator. The stream is kept as
its key and the number of words that have been taken. -/
namespace Rollout
set_option autoImplicit false

namespace Random

/-! ## Words of the key -/

def rotateLeft (x : UInt32) (n : UInt32) : UInt32 := (x <<< n) ||| (x >>> (32 - n))

def rotateRight (x : UInt32) (n : UInt32) : UInt32 :=
  if n = 0 then x else (x >>> n) ||| (x <<< (32 - n))

/-- A step of the congruential generator behind the key. -/
def congruential (state : UInt64) : UInt64 := state * 6364136223846793005 + 11634580027462260723

/-- The word that a state of the congruential generator gives. -/
def permuted (state : UInt64) : UInt32 :=
  rotateRight (((state >>> 18) ^^^ state) >>> 27).toUInt32 (state >>> 59).toUInt32

def expand : Nat → UInt64 → List UInt32
  | 0, _ => []
  | n + 1, state => permuted (congruential state) :: expand n (congruential state)

/-! ## Blocks -/

structure Row where
  w0 : UInt32
  w1 : UInt32
  w2 : UInt32
  w3 : UInt32

namespace Row

def zip (f : UInt32 → UInt32 → UInt32) (a b : Row) : Row :=
  ⟨f a.w0 b.w0, f a.w1 b.w1, f a.w2 b.w2, f a.w3 b.w3⟩

def map (f : UInt32 → UInt32) (a : Row) : Row := ⟨f a.w0, f a.w1, f a.w2, f a.w3⟩

def turn (a : Row) : Row := ⟨a.w1, a.w2, a.w3, a.w0⟩

def toList (a : Row) : List UInt32 := [a.w0, a.w1, a.w2, a.w3]

end Row

structure Square where
  a : Row
  b : Row
  c : Row
  d : Row

namespace Square

def zip (f : UInt32 → UInt32 → UInt32) (s t : Square) : Square :=
  ⟨s.a.zip f t.a, s.b.zip f t.b, s.c.zip f t.c, s.d.zip f t.d⟩

/-- Half a quarter round on every column, with its two distances of rotation. -/
def mix (s : Square) (n m : UInt32) : Square :=
  let a := s.a.zip (· + ·) s.b
  let d := (s.d.zip (· ^^^ ·) a).map fun x => rotateLeft x n
  let c := s.c.zip (· + ·) d
  let b := (s.b.zip (· ^^^ ·) c).map fun x => rotateLeft x m
  ⟨a, b, c, d⟩

def columns (s : Square) : Square := (s.mix 16 12).mix 8 7

/-- A round on the columns and one on the diagonals. -/
def doubleRound (s : Square) : Square :=
  let s := s.columns
  let s := columns ⟨s.a, s.b.turn, s.c.turn.turn, s.d.turn.turn.turn⟩
  ⟨s.a, s.b.turn.turn.turn, s.c.turn.turn, s.d.turn⟩

def rounds : Nat → Square → Square
  | 0, s => s
  | n + 1, s => rounds n s.doubleRound

def toList (s : Square) : List UInt32 := s.a.toList ++ s.b.toList ++ s.c.toList ++ s.d.toList

end Square

/-- The words of a row from a list, zero where it ends. -/
def rowOf (ws : List UInt32) : Row := ⟨ws.getD 0 0, ws.getD 1 0, ws.getD 2 0, ws.getD 3 0⟩

/-- The square before the rounds: the constant, the key, the counter and zeros. -/
def initial (key : List UInt32) (counter : UInt64) : Square :=
  ⟨⟨0x61707865, 0x3320646e, 0x79622d32, 0x6b206574⟩, rowOf key, rowOf (key.drop 4),
    ⟨counter.toUInt32, (counter >>> 32).toUInt32, 0, 0⟩⟩

def block (key : List UInt32) (counter : UInt64) : List UInt32 :=
  (((initial key counter).rounds 6).zip (· + ·) (initial key counter)).toList

/-! ## The stream -/

structure Keystream where
  key : List UInt32
  taken : Nat
  deriving DecidableEq

namespace Keystream

def seeded (seed : UInt64) : Keystream := ⟨expand 8 seed, 0⟩

def word (k : Keystream) (i : Nat) : UInt32 :=
  (block k.key (UInt64.ofNat (i / 16))).getD (i % 16) 0

def next (k : Keystream) : UInt32 × Keystream := (k.word k.taken, { k with taken := k.taken + 1 })

end Keystream

end Random

end Rollout
