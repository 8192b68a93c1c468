/-! Powers of two and of ten, and how powers of two sit among the natural numbers. -/
namespace Rollout
set_option autoImplicit false

def twoTo (n : Nat) : Nat := Nat.pow 2 n

def tenTo (n : Nat) : Nat := Nat.pow 10 n

theorem twoTo_pos (n : Nat) : 0 < twoTo n := Nat.two_pow_pos n

theorem tenTo_pos (n : Nat) : 0 < tenTo n := Nat.pow_pos (by decide)

theorem twoTo_add (a b : Nat) : twoTo (a + b) = twoTo a * twoTo b := Nat.pow_add 2 a b

theorem twoTo_le {a b : Nat} (h : a ≤ b) : twoTo a ≤ twoTo b :=
  Nat.pow_le_pow_right (by decide) h

theorem lt_twoTo_log2 (n : Nat) : n < twoTo (n.log2 + 1) := Nat.lt_log2_self

theorem twoTo_log2_le {n : Nat} (h : n ≠ 0) : twoTo n.log2 ≤ n := Nat.log2_self_le h

theorem log2_lt_of_lt {n k : Nat} (h0 : n ≠ 0) (h : n < twoTo k) : n.log2 < k :=
  (Nat.log2_lt h0).2 h

theorem mul_twoTo_lt {n a b c : Nat} (h : n < twoTo a) (hc : a + b ≤ c) :
    n * twoTo b < twoTo c :=
  Nat.lt_of_lt_of_le ((Nat.mul_lt_mul_right (twoTo_pos b)).2 h)
    (by rw [← twoTo_add]; exact twoTo_le hc)

end Rollout
