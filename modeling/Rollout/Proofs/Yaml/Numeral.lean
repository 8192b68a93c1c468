import Rollout.Proofs.Number.Short
import Rollout.Proofs.Yaml.Tokens

/-! # Numerals of JSON as plain scalars

A plain scalar that JSON reads as a number is no null, no truth value and no infinity. Its digits
count all, for an integer as for a number with a point or an exponent. -/
namespace Rollout
set_option autoImplicit false

namespace Json

/-! ## Digits -/

theorem hexValue?_of_isDigit {c : Char} (h : c.isDigit = true) :
    Text.hexValue? c = some (c.toNat - 0x30) ∧ c.toNat - 0x30 < 10 := by
  have hall : ∀ c ∈ digitChars, Text.hexValue? c = some (c.toNat - 0x30) ∧ c.toNat - 0x30 < 10 :=
    forall_mem_of_all rfl
  exact hall c (mem_digitChars h)

theorem radix?_digits {ds : List Char} (hne : ds ≠ []) (hds : ∀ c ∈ ds, c.isDigit = true) :
    Yaml.radix? 10 ds = some (natOf ds) := by
  rw [Yaml.radix?, if_neg hne, natOf]
  generalize 0 = n
  clear hne
  induction ds generalizing n with
  | nil => rfl
  | cons c ds ih =>
    obtain ⟨hvalue, hlt⟩ := hexValue?_of_isDigit (hds c List.mem_cons_self)
    rw [List.foldl_cons, List.foldl_cons, ← ih (fun d hd => hds d (List.mem_cons_of_mem _ hd))]
    simp [hvalue, hlt]

/-- Only digits make an integer. -/
theorem radix?_eq_none {cs : List Char} {c : Char} (hc : c ∈ cs)
    (hnot : c ∈ ['-', '+', '.', 'e', 'E']) : Yaml.radix? 10 cs = none := by
  have hvalue : ∀ n, (Text.hexValue? c).bind (fun d => if d < 10 then some (n * 10 + d) else none) =
      none := by
    intro n
    simp only [List.mem_cons, List.not_mem_nil, or_false] at hnot
    rcases hnot with rfl | rfl | rfl | rfl | rfl <;> rfl
  have hnone : ∀ (ds : List Char) (f : Option Nat → Char → Option Nat), (∀ d, f none d = none) →
      ds.foldl f none = none := by
    intro ds f hf
    induction ds with
    | nil => rfl
    | cons d ds ih => rw [List.foldl_cons, hf, ih]
  rw [Yaml.radix?, if_neg (List.ne_nil_of_mem hc)]
  generalize some 0 = n?
  induction cs generalizing n? with
  | nil => cases hc
  | cons d cs ih =>
    rw [List.foldl_cons]
    rcases List.mem_cons.1 hc with rfl | hc
    · cases n? with
      | none => exact hnone _ _ fun _ => rfl
      | some n =>
        simp only [Option.bind_eq_bind, Option.bind_some, hvalue]
        exact hnone _ _ fun _ => rfl
    · exact ih hc _

/-! ## Integers -/

namespace Numeral

theorem mem_chars_of_mem_body {x : Numeral} {c : Char} (h : c ∈ x.body) : c ∈ x.chars := by
  rw [chars]
  split
  · exact List.mem_cons_of_mem _ h
  · exact h

theorem magnitude?_body (x : Numeral) : Yaml.magnitude? x.body = Yaml.radix? 10 x.body := by
  have hmark : ∀ c ∈ x.body, c ≠ 'x' ∧ c ≠ 'o' ∧ c ≠ 'b' := by
    have hall : ∀ c ∈ digitChars ++ ['-', '+', '.', 'e', 'E'], c ≠ 'x' ∧ c ≠ 'o' ∧ c ≠ 'b' :=
      forall_mem_of_all rfl
    exact fun c hc => hall c (List.mem_append.2 (mem_chars (mem_chars_of_mem_body hc)))
  unfold Yaml.magnitude?
  split
  · rename_i heq
    exact absurd rfl (hmark 'x' (by simp [heq])).1
  · rename_i heq
    exact absurd rfl (hmark 'o' (by simp [heq])).2.1
  · rename_i heq
    exact absurd rfl (hmark 'b' (by simp [heq])).2.2
  · rfl

theorem chars_of_negative {x : Numeral} (h : x.negative = true) : x.chars = '-' :: x.body := if_pos h

theorem chars_of_not_negative {x : Numeral} (h : ¬x.negative = true) : x.chars = x.body := if_neg h

/-- The body starts with a digit, so with no sign and no point. -/
theorem body_ne (x : Numeral) {c : Char} (hc : c.isDigit = false) (rest : List Char) :
    x.body ≠ c :: rest := by
  obtain ⟨d, ds, hbody, hd⟩ := x.exists_body
  rw [hbody]
  exact fun h => ne_of_isDigit hd hc (List.cons.inj h).1

theorem tail_head (x : Numeral) : ∀ c ∈ x.tail.chars.head?, c.isDigit = false := by
  generalize x.tail = tail
  cases tail with
  | integer => rintro _ ⟨⟩
  | exponent e =>
    rintro _ ⟨⟩
    rcases e.isLetter with h | h <;> rw [h] <;> rfl
  | places ds =>
    rintro _ ⟨⟩
    rfl
  | scientific ds e =>
    rintro _ ⟨⟩
    rfl

theorem hasLeadingZero_chars (x : Numeral) : Yaml.hasLeadingZero x.chars = false := by
  have hzero : ∀ d rest, x.body = '0' :: d :: rest → d.isDigit = false := by
    intro d rest heq
    obtain ⟨c, ds, hcons⟩ := List.exists_cons_of_ne_nil x.whole.nonempty
    have hbody : c :: (ds ++ x.tail.chars) = '0' :: d :: rest := by
      rw [← heq, body, hcons, List.cons_append]
    obtain ⟨rfl, hmore⟩ := List.cons.inj hbody
    have honly := x.zero (by rw [hcons]; rfl)
    rw [hcons] at honly
    rw [(List.cons.inj honly).2, List.nil_append] at hmore
    exact x.tail_head d (by rw [hmore]; rfl)
  have hleading : ∀ cs, cs = x.body → Yaml.hasLeadingZero ('-' :: cs) = false := by
    rintro cs hcs
    unfold Yaml.hasLeadingZero
    simp only []
    split
    · rename_i d rest
      rw [List.all_cons, hzero d rest hcs.symm, Bool.false_and]
    · rfl
  by_cases hneg : x.negative = true
  · rw [chars_of_negative hneg]
    exact hleading _ rfl
  · rw [chars_of_not_negative hneg, ← hleading _ rfl]
    unfold Yaml.hasLeadingZero
    split
    · exact absurd ‹_› (x.body_ne rfl _)
    · exact absurd ‹_› (x.body_ne rfl _)
    · rfl

theorem integer?_chars (x : Numeral) :
    Yaml.integer? x.chars = (Yaml.radix? 10 x.body).map (signed x.negative) := by
  have hzero := x.hasLeadingZero_chars
  unfold Yaml.integer?
  rw [hzero, ← magnitude?_body]
  by_cases hneg : x.negative = true
  · rw [chars_of_negative hneg, hneg]
    cases h : Yaml.magnitude? x.body <;> simp [h, signed]
  · rw [chars_of_not_negative hneg, Bool.eq_false_iff.2 hneg]
    simp only [Bool.false_eq_true, if_false]
    split
    · exact absurd ‹_› (x.body_ne rfl _)
    · exact absurd ‹_› (x.body_ne rfl _)
    · cases h : Yaml.magnitude? x.body <;> simp [signed]

theorem integer?_of_integer {x : Numeral} (h : x.tail = .integer) :
    Yaml.integer? x.chars = some x.integer := by
  have hbody : x.body = x.whole.chars := by rw [body, h, Tail.chars, List.append_nil]
  rw [x.integer?_chars, hbody, radix?_digits x.whole.nonempty x.whole.digits]
  rfl

theorem integer?_of_tail {x : Numeral} (h : x.tail ≠ .integer) : Yaml.integer? x.chars = none := by
  obtain ⟨c, hc, hmark⟩ : ∃ c ∈ x.tail.chars, c ∈ ['-', '+', '.', 'e', 'E'] := by
    generalize x.tail = tail at h
    cases tail with
    | integer => exact absurd rfl h
    | exponent e =>
      refine ⟨e.letter, List.mem_cons_self, ?_⟩
      rcases e.isLetter with h | h <;> rw [h] <;> decide
    | places ds => exact ⟨'.', List.mem_cons_self, by decide⟩
    | scientific ds e => exact ⟨'.', List.mem_cons_self, by decide⟩
  have hmem : c ∈ x.body := List.mem_append_right _ hc
  rw [x.integer?_chars, radix?_eq_none hmem hmark]
  rfl

/-- A number with more digits after it. -/
def extend (n : Nat) (ds : List Char) : Nat := ds.foldl (fun n d => n * 10 + (d.toNat - 0x30)) n

theorem le_extend (n : Nat) (ds : List Char) : n ≤ extend n ds := by
  induction ds generalizing n with
  | nil => exact Nat.le_refl n
  | cons d ds ih =>
    have hstep : n * 10 + (d.toNat - 0x30) ≤ extend n (d :: ds) := ih _
    omega

theorem natOf_append (ds es : List Char) : natOf (ds ++ es) = extend (natOf ds) es :=
  List.foldl_append

/-- Digits that 64 bits hold are all absorbed. -/
theorem absorb_of_lt {n : Nat} {ds : List Char} (h : extend n ds < twoTo 64) :
    absorb n ds = (extend n ds, []) := by
  induction ds generalizing n with
  | nil => rfl
  | cons d ds ih =>
    rw [absorb, if_pos (Nat.lt_of_le_of_lt (le_extend _ ds) h), ih h]
    rfl

theorem excess?_of_le {n : Nat} {ds : List Char} (h : extend n ds ≤ maxExponent) :
    excess? n ds = none := by
  induction ds generalizing n with
  | nil => rfl
  | cons d ds ih =>
    rw [excess?, if_neg (Nat.not_lt.2 (Nat.le_trans (le_extend _ ds) h)), ih h]

/-- What 64 bits hold of a numeral is all of it. -/
theorem kept_of_lt {x : Numeral} (h : natOf (x.whole.chars ++ x.tail.digits) < twoTo 64) :
    x.kept = ⟨natOf (x.whole.chars ++ x.tail.digits), -(x.tail.digits.length : Int)⟩ := by
  rw [natOf_append] at h ⊢
  have hwhole : absorb 0 x.whole.chars = (natOf x.whole.chars, []) :=
    absorb_of_lt (Nat.lt_of_le_of_lt (le_extend _ _) h)
  rw [x.kept_eq, absorbed, hwhole, absorb_of_lt h]
  simp

/-- An integer that 64 bits hold is read as itself. -/
theorem number?_of_fits {x : Numeral} (htail : x.tail = .integer) {n : Number}
    (hn : Number.ofInt? x.integer = some n) (hzero : ¬(x.negative = true ∧ natOf x.whole.chars = 0)) :
    x.number? = some n := by
  have hlt : natOf x.whole.chars < twoTo 64 := by
    have hrange : -9223372036854775808 ≤ x.integer ∧ x.integer < 18446744073709551616 := by
      unfold Number.ofInt? at hn
      split at hn
      · assumption
      · cases hn
    have htwo : twoTo 64 = 18446744073709551616 := by decide
    rw [integer, signed] at hrange
    split at hrange <;> omega
  have hdigits : x.tail.digits = [] := by rw [htail]; rfl
  have hkept : x.kept = ⟨natOf x.whole.chars, 0⟩ := by
    rw [kept_of_lt (by rwa [hdigits, List.append_nil]), hdigits, List.append_nil]
    rfl
  have hsome : Number.ofInt? (signed x.negative (natOf x.whole.chars)) = some n := hn
  rw [number?, htail, hkept]
  simp only [integer?]
  rw [if_neg (by simpa using hzero), hsome, Option.some_or]

end Numeral

/-! ## Numbers -/

theorem exponent?_chars (e : Exponent) : Yaml.exponent? e.chars = some e.value := by
  have hletter : (decide (e.letter = 'e') || decide (e.letter = 'E')) = true := by
    rcases e.isLetter with h | h <;> rw [h] <;> rfl
  have hradix := radix?_digits e.digits.nonempty e.digits.digits
  rw [Exponent.chars]
  unfold Yaml.exponent?
  simp only [hletter, if_true]
  rcases e.isSign with h | h | h
  · have hvalue : e.value = natOf e.digits.chars := by simp [Exponent.value, Exponent.down, h]
    have hhead : ∀ c rest, c.isDigit = false → e.digits.chars ≠ c :: rest := by
      intro c rest hc heq
      have hdigit := e.digits.digits c (by simp [heq])
      rw [hc] at hdigit
      cases hdigit
    rw [h, List.nil_append, hvalue]
    split
    · exact absurd ‹_› (hhead _ _ rfl)
    · exact absurd ‹_› (hhead _ _ rfl)
    · simp [hradix]
  · have hvalue : e.value = natOf e.digits.chars := by simp [Exponent.value, Exponent.down, h]
    simp [h, hradix, hvalue]
  · have hvalue : e.value = -natOf e.digits.chars := by simp [Exponent.value, Exponent.down, h]
    simp [h, hradix, hvalue]

namespace Tail

/-- The characters of the exponent, if there is one. -/
def power (t : Tail) : List Char := (t.exponent?.map Exponent.chars).getD []

theorem isDigit_of_mem_digits {t : Tail} : ∀ c ∈ t.digits, c.isDigit = true := by
  cases t with
  | integer => rintro _ ⟨⟩
  | exponent e => rintro _ ⟨⟩
  | places ds => exact ds.digits
  | scientific ds e => exact ds.digits

theorem exponent?_power (t : Tail) :
    Yaml.exponent? t.power = some ((t.exponent?.map Exponent.value).getD 0) := by
  cases t with
  | integer => rfl
  | exponent e => exact exponent?_chars e
  | places ds => rfl
  | scientific ds e => exact exponent?_chars e

theorem power_head (t : Tail) : ∀ c ∈ t.power.head?, c.isDigit = false ∧ c ≠ '.' := by
  have hletter : ∀ e : Exponent, e.letter.isDigit = false ∧ e.letter ≠ '.' := by
    intro e
    rcases e.isLetter with h | h <;> rw [h] <;> decide
  cases t with
  | integer => rintro _ ⟨⟩
  | exponent e =>
    rintro _ ⟨⟩
    exact hletter e
  | places ds => rintro _ ⟨⟩
  | scientific ds e =>
    rintro _ ⟨⟩
    exact hletter e

/-- A tail is its exponent alone, or a point and digits before the exponent. -/
theorem chars_eq (t : Tail) :
    t.digits = [] ∧ t.chars = t.power ∨ t.chars = '.' :: (t.digits ++ t.power) := by
  cases t with
  | integer => exact .inl ⟨rfl, rfl⟩
  | exponent e => exact .inl ⟨rfl, rfl⟩
  | places ds => exact .inr (congrArg ('.' :: ·) (List.append_nil ds.chars).symm)
  | scientific ds e => exact .inr rfl

end Tail

namespace Numeral

theorem decimal?_body (x : Numeral) : Yaml.decimal? x.body = some x.exact := by
  have hwhole : x.body.takeWhile Char.isDigit = x.whole.chars :=
    digitsOf_append x.whole.digits x.tail_head
  have hdrop : x.body.drop x.whole.chars.length = x.tail.chars := List.drop_left
  have hradix : Yaml.radix? 10 (x.whole.chars ++ x.tail.digits) =
      some (natOf (x.whole.chars ++ x.tail.digits)) :=
    radix?_digits (List.append_ne_nil_of_left_ne_nil x.whole.nonempty _) fun c hc =>
      (List.mem_append.1 hc).elim (x.whole.digits c) (x.tail.isDigit_of_mem_digits c)
  have htake : (x.tail.digits ++ x.tail.power).takeWhile Char.isDigit = x.tail.digits :=
    digitsOf_append x.tail.isDigit_of_mem_digits fun c hc => (x.tail.power_head c hc).1
  have hafter : (x.tail.digits ++ x.tail.power).dropWhile Char.isDigit = x.tail.power :=
    afterDigits_append x.tail.isDigit_of_mem_digits fun c hc => (x.tail.power_head c hc).1
  have hread : (do
      let digits ← Yaml.radix? 10 (x.whole.chars ++ x.tail.digits)
      let e ← Yaml.exponent? x.tail.power
      return (⟨digits, e - x.tail.digits.length⟩ : Decimal)) = some x.exact := by
    rw [hradix, x.tail.exponent?_power]
    rfl
  rw [Yaml.decimal?]
  simp only [hwhole, hdrop]
  rcases x.tail.chars_eq with ⟨hnone, hchars⟩ | hchars
  · rw [hchars]
    split
    · rename_i heq
      exact absurd rfl (x.tail.power_head '.' (by rw [heq]; rfl)).2
    · rwa [hnone] at hread
  · rw [hchars]
    simp only [htake, hafter]
    exact hread

/-- No text that starts with another character is a numeral. -/
theorem contains_eq_false {cs rest : List Char} {c : Char} (hcs : cs = c :: rest) {names : List String}
    (hnames : ∀ s ∈ names, s.toList.head? ≠ some c) : names.contains (String.ofList cs) = false := by
  rw [List.contains_eq_mem, decide_eq_false_iff_not]
  intro hmem
  have hhead := hnames _ hmem
  rw [String.toList_ofList, hcs] at hhead
  exact hhead rfl

theorem exists_chars (x : Numeral) : ∃ c cs, x.chars = c :: cs ∧ c ∈ '-' :: digitChars := by
  by_cases hneg : x.negative = true
  · exact ⟨'-', x.body, chars_of_negative hneg, List.mem_cons_self⟩
  · obtain ⟨c, cs, hbody, hc⟩ := x.exists_body
    exact ⟨c, cs, (chars_of_not_negative hneg).trans hbody, List.mem_cons_of_mem _ (mem_digitChars hc)⟩

theorem real_chars (x : Numeral) : Yaml.real x.chars = Yaml.finite x.negative x.body := by
  have hnan : Yaml.isNaN x.chars = false := by
    obtain ⟨c, cs, hcons, hc⟩ := x.exists_chars
    have hall : ∀ c ∈ '-' :: digitChars, ∀ s ∈ [".nan", ".NaN", ".NAN"],
        s.toList.head? ≠ some c := forall_mem_of_all rfl
    exact contains_eq_false hcons (hall c hc)
  have hinfinity : Yaml.isInfinity x.body = false := by
    obtain ⟨c, cs, hcons, hc⟩ := x.exists_body
    have hall : ∀ c ∈ digitChars, ∀ s ∈ [".inf", ".Inf", ".INF"], s.toList.head? ≠ some c :=
      forall_mem_of_all rfl
    exact contains_eq_false hcons (hall c (mem_digitChars hc))
  unfold Yaml.real
  rw [hnan]
  by_cases hneg : x.negative = true
  · rw [chars_of_negative hneg, hneg]
    simp [hinfinity]
  · rw [chars_of_not_negative hneg, Bool.eq_false_iff.2 hneg]
    simp only [Bool.false_eq_true, if_false]
    split
    · exact absurd ‹_› (x.body_ne rfl _)
    · exact absurd ‹_› (x.body_ne rfl _)
    · rw [if_neg (by simp [hinfinity])]

theorem isNull_chars (x : Numeral) : Yaml.isNull x.chars = false := by
  obtain ⟨c, cs, hcons, hc⟩ := x.exists_chars
  have hall : ∀ c ∈ '-' :: digitChars, ∀ s ∈ ["null", "Null", "NULL", "~"],
      s.toList.head? ≠ some c := forall_mem_of_all rfl
  exact contains_eq_false hcons (hall c hc)

theorem boolean?_chars (x : Numeral) : Yaml.boolean? x.chars = none := by
  obtain ⟨c, cs, hcons, hc⟩ := x.exists_chars
  have hall : ∀ c ∈ '-' :: digitChars, (∀ s ∈ ["true", "True", "TRUE"], s.toList.head? ≠ some c) ∧
      ∀ s ∈ ["false", "False", "FALSE"], s.toList.head? ≠ some c := forall_mem_of_all rfl
  have htrue := contains_eq_false hcons (hall c hc).1
  have hfalse := contains_eq_false hcons (hall c hc).2
  simp only [Yaml.boolean?, htrue, hfalse, Bool.false_eq_true, if_false]

theorem plainDocument?_eq (x : Numeral) : Yaml.plainDocument? x.chars =
    match Yaml.integer x.chars with
    | .fits n => some (.number n)
    | .refused => none
    | .not => some ((Yaml.finite x.negative x.body).document?.getD (.text (String.ofList x.chars))) := by
  obtain ⟨c, cs, hcons, -⟩ := x.exists_chars
  have hne : (decide (x.chars = []) || Yaml.isNull x.chars) = false := by
    rw [x.isNull_chars, Bool.or_false, hcons]
    rfl
  rw [Yaml.plainDocument?, hne, x.boolean?_chars, x.hasLeadingZero_chars, x.real_chars]
  rfl

theorem plainDocument?_of_not {x : Numeral} (hnot : Yaml.integer x.chars = .not) (hx : x.RoundsOnce)
    {n : Number} (hn : x.number? = some n) : Yaml.plainDocument? x.chars = some (.number n) := by
  rw [RoundsOnce, hn] at hx
  obtain ⟨b, hb, rfl⟩ := Option.map_eq_some_iff.1 hx.symm
  have hfinite : Yaml.finite x.negative x.body = .finite b := by
    rw [Yaml.finite, x.decimal?_body, Option.bind_some, hb]
  rw [x.plainDocument?_eq, hnot, hfinite]
  rfl

/-- A portable numeral is the same number as a plain scalar. -/
theorem plainDocument?_chars {x : Numeral} (hx : x.Portable) {n : Number} (hn : x.number? = some n) :
    Yaml.plainDocument? x.chars = some (.number n) := by
  by_cases htail : x.tail = .integer
  · have hinteger := integer?_of_integer htail
    rw [Portable, htail] at hx
    rcases hx with ⟨hsome, hzero⟩ | ⟨hnone, hrange, hround⟩
    · obtain ⟨m, hm⟩ := Option.isSome_iff_exists.1 hsome
      have hfits : Yaml.integer x.chars = .fits m := by rw [Yaml.integer, hinteger]; simp only [hm]
      rw [number?_of_fits htail hm hzero] at hn
      rw [x.plainDocument?_eq, hfits]
      simpa using hn
    · have hnot : Yaml.integer x.chars = .not := by
        rw [Yaml.integer, hinteger]
        simp only [hnone]
        rw [if_neg hrange]
      exact plainDocument?_of_not hnot hround hn
  · have hnot : Yaml.integer x.chars = .not := by rw [Yaml.integer, integer?_of_tail htail]
    have hround : x.RoundsOnce := by
      rw [Portable] at hx
      split at hx
      · exact absurd ‹_› htail
      · exact hx
    exact plainDocument?_of_not hnot hround hn

/-! ## Short numerals -/

/-- Outside the integers, a numeral of at most 53 bits is its value scaled. -/
theorem number?_of_short {x : Numeral} (hdigits : x.exact.digits < 9007199254740992)
    (hexponent : ∀ e ∈ x.tail.exponent?, natOf e.digits.chars ≤ maxExponent)
    (htail : x.tail ≠ .integer) : x.number? = (x.exact.scaled? x.negative).map Number.real := by
  have hkept := kept_of_lt (Nat.lt_trans hdigits (by decide))
  have hpower : ∀ e, x.tail.exponent? = some e →
      e.number? x.negative x.kept = (x.exact.scaled? x.negative).map Number.real := by
    intro e he
    have hexcess : (excess? 0 e.digits.chars).isNone = true := by
      rw [excess?_of_le (hexponent e he)]
      rfl
    have hexact : (⟨x.kept.digits, x.kept.exponent + e.value⟩ : Decimal) = x.exact := by
      rw [hkept, exact, he, Option.map_some, Option.getD_some, Int.sub_eq_add_neg, Int.add_comm]
    rw [Exponent.number?, if_pos hexcess, hexact]
  rw [number?]
  split
  · exact absurd ‹_› htail
  · rename_i e heq
    exact hpower e (by rw [heq]; rfl)
  · rename_i ds heq
    have hexact : x.kept = x.exact := by
      rw [hkept, exact, heq]
      simp [Tail.exponent?]
    rw [hexact]
  · rename_i ds e heq
    exact hpower e (by rw [heq]; rfl)

/-- A numeral of at most 53 bits with no more than 22 places is portable, minus zero apart. -/
theorem portable_of_short {x : Numeral} (hdigits : x.exact.digits < 9007199254740992)
    (hplaces : x.exact.exponent.natAbs ≤ 22)
    (hexponent : ∀ e ∈ x.tail.exponent?, natOf e.digits.chars ≤ maxExponent)
    (hzero : x.tail = .integer → ¬(x.negative = true ∧ natOf x.whole.chars = 0)) : x.Portable := by
  by_cases htail : x.tail = .integer
  · rw [Portable, htail]
    refine .inl ⟨?_, hzero htail⟩
    have hwhole : x.whole.chars ++ x.tail.digits = x.whole.chars := by
      rw [htail]
      exact List.append_nil _
    have hlt : natOf x.whole.chars < 9007199254740992 := by
      rw [← hwhole]
      exact hdigits
    have hrange : -9223372036854775808 ≤ x.integer ∧ x.integer < 18446744073709551616 := by
      rw [integer, signed]
      split <;> omega
    rw [Number.ofInt?, dif_pos hrange]
    rfl
  · have hround := number?_of_short hdigits hexponent htail
    rw [Decimal.scaled?_of_short hdigits hplaces] at hround
    rw [Portable]
    split
    · exact absurd ‹_› htail
    · exact hround

end Numeral

end Json

end Rollout
