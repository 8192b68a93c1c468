import Mathlib.Data.Nat.Notation
import Rollout.Text.Units

/-! # Texts and their bytes

The bytes of a text read back as the text. The first byte of a character promises the others, and
what they add to its bits is the number of the character; the surrogates and the long forms that a
promise rules out belong to no character. -/
namespace Rollout.Text
set_option autoImplicit false

/-! ## First bytes -/

theorem toNat_byte {n : ℕ} (h : n < 256) : (UInt8.ofNat n).toNat = n := UInt8.toNat_ofNat_of_lt' h

theorem promise?_one {v : ℕ} (h : v ≤ 0x7f) : promise? (UInt8.ofNat v) = some (0, 0, 0, v) := by
  have hb : (UInt8.ofNat v).toNat = v := toNat_byte (by omega)
  simp only [promise?, hb]
  rw [if_pos (by omega)]

theorem promise?_two {v : ℕ} (hlow : 0x80 ≤ v) (hhigh : v ≤ 0x7ff) :
    promise? (UInt8.ofNat (v / 64 % 32 + 192)) = some (1, 0x80, 0xbf, v / 64) := by
  have hb : (UInt8.ofNat (v / 64 % 32 + 192)).toNat = v / 64 + 0xc0 := by
    rw [toNat_byte (by omega)]
    omega
  simp only [promise?, hb]
  rw [if_neg (by omega), if_neg (by omega), if_pos (by omega), Nat.add_sub_cancel]

/-- The second byte of a character lies in the range that the first one promises. -/
theorem promise?_three {v : ℕ} (hlow : 0x800 ≤ v) (hhigh : v ≤ 0xffff)
    (hsurrogate : v < 0xd800 ∨ 0xdfff < v) :
    ∃ low high, promise? (UInt8.ofNat (v / 4096 % 16 + 224)) = some (2, low, high, v / 4096) ∧
      low ≤ v / 64 % 64 + 128 ∧ v / 64 % 64 + 128 ≤ high := by
  have hb : (UInt8.ofNat (v / 4096 % 16 + 224)).toNat = v / 4096 + 0xe0 := by
    rw [toNat_byte (by omega)]
    omega
  simp only [promise?, hb]
  rw [if_neg (by omega), if_neg (by omega), if_neg (by omega)]
  by_cases hfirst : v / 4096 = 0
  · rw [if_pos (by omega), hfirst]
    exact ⟨_, _, rfl, by omega, by omega⟩
  · rw [if_neg (by omega)]
    by_cases hed : v / 4096 = 0xd
    · rw [if_pos (by omega), hed]
      exact ⟨_, _, rfl, by omega, by omega⟩
    · rw [if_neg (by omega), if_pos (by omega), Nat.add_sub_cancel]
      exact ⟨_, _, rfl, by omega, by omega⟩

theorem promise?_four {v : ℕ} (hlow : 0x10000 ≤ v) (hhigh : v ≤ 0x10ffff) :
    ∃ low high, promise? (UInt8.ofNat (v / 262144 % 8 + 240)) = some (3, low, high, v / 262144) ∧
      low ≤ v / 4096 % 64 + 128 ∧ v / 4096 % 64 + 128 ≤ high := by
  have hb : (UInt8.ofNat (v / 262144 % 8 + 240)).toNat = v / 262144 + 0xf0 := by
    rw [toNat_byte (by omega)]
    omega
  simp only [promise?, hb]
  rw [if_neg (by omega), if_neg (by omega), if_neg (by omega), if_neg (by omega),
    if_neg (by omega), if_neg (by omega)]
  by_cases hfirst : v / 262144 = 0
  · rw [if_pos (by omega), hfirst]
    exact ⟨_, _, rfl, by omega, by omega⟩
  · rw [if_neg (by omega)]
    by_cases hf4 : v / 262144 = 4
    · rw [if_neg (by omega), if_pos (by omega), hf4]
      exact ⟨_, _, rfl, by omega, by omega⟩
    · rw [if_pos (by omega), Nat.add_sub_cancel]
      exact ⟨_, _, rfl, by omega, by omega⟩

/-! ## Following bytes -/

theorem follow_cons {more low high acc n : ℕ} (hlow : low ≤ n + 128) (hhigh : n + 128 ≤ high)
    (hn : n < 64) (bs : List UInt8) :
    follow (more + 1) low high acc (UInt8.ofNat (n + 128) :: bs) =
      ((follow more 0x80 0xbf (acc * 64 + n) bs).1 + 1,
        (follow more 0x80 0xbf (acc * 64 + n) bs).2) := by
  have hb : (UInt8.ofNat (n + 128)).toNat = n + 128 := toNat_byte (by omega)
  have hrange : (decide (low ≤ n + 128) && decide (n + 128 ≤ high)) = true := by
    simp [hlow, hhigh]
  rw [follow, hb, if_pos hrange, Nat.add_sub_cancel]

/-! ## Characters -/

theorem decodeFrom_char (fuel : ℕ) (c : Char) (bs : List UInt8) :
    decodeFrom (fuel + 1) (String.utf8EncodeChar c ++ bs) = some c :: decodeFrom fuel bs := by
  have hc : Char.ofNat c.val.toNat = c := Char.ofNat_toNat c
  have hvalid : c.val.toNat < 0xd800 ∨ 0xdfff < c.val.toNat ∧ c.val.toNat < 0x110000 := c.valid
  generalize hv : c.val.toNat = v at hc hvalid
  unfold String.utf8EncodeChar
  simp only [hv]
  split
  · rename_i h
    rw [List.cons_append, decodeFrom, promise?_one h]
    simp [follow, hc]
  · split
    · rename_i h
      rw [List.cons_append, decodeFrom, promise?_two (by omega) h]
      have hcode : v / 64 * 64 + v % 64 = v := by omega
      simp only [List.cons_append, List.nil_append]
      rw [follow_cons (by omega) (by omega) (by omega)]
      simp [follow, hcode, hc]
    · split
      · rename_i h
        obtain ⟨low, high, hpromise, hl, hh⟩ :=
          promise?_three (v := v) (by omega) h (by omega)
        rw [List.cons_append, decodeFrom, hpromise]
        have hcode : (v / 4096 * 64 + v / 64 % 64) * 64 + v % 64 = v := by omega
        simp only [List.cons_append, List.nil_append]
        rw [follow_cons hl hh (by omega), follow_cons (by omega) (by omega) (by omega)]
        simp [follow, hcode, hc]
      · obtain ⟨low, high, hpromise, hl, hh⟩ := promise?_four (v := v) (by omega) (by omega)
        rw [List.cons_append, decodeFrom, hpromise]
        have hcode : ((v / 262144 * 64 + v / 4096 % 64) * 64 + v / 64 % 64) * 64 + v % 64 = v := by
          omega
        simp only [List.cons_append, List.nil_append]
        rw [follow_cons hl hh (by omega), follow_cons (by omega) (by omega) (by omega),
          follow_cons (by omega) (by omega) (by omega)]
        simp [follow, hcode, hc]

/-! ## Texts -/

theorem decodeFrom_bytes (cs : List Char) {fuel : ℕ}
    (h : (cs.flatMap String.utf8EncodeChar).length ≤ fuel) :
    decodeFrom fuel (cs.flatMap String.utf8EncodeChar) = cs.map some := by
  induction cs generalizing fuel with
  | nil => simp [decodeFrom]
  | cons c rest ih =>
    rw [List.flatMap_cons, List.length_append] at h
    have hpos : 0 < (String.utf8EncodeChar c).length := by
      rw [String.length_utf8EncodeChar]
      exact Char.utf8Size_pos c
    obtain ⟨fuel, rfl⟩ : ∃ n, fuel = n + 1 := ⟨fuel - 1, by omega⟩
    rw [List.flatMap_cons, decodeFrom_char, ih (by omega), List.map_cons]

theorem ofBytesLossy_bytes (s : String) : ofBytesLossy (bytes s) = s := by
  rw [ofBytesLossy, decoded, bytes, decodeFrom_bytes s.toList (Nat.le_refl _), List.map_map]
  have hget : (fun c : Option Char => c.getD (Char.ofNat 0xfffd)) ∘ some = id := rfl
  rw [hget, List.map_id, String.ofList_toList]

end Rollout.Text
