import Mathlib.Data.List.TakeWhile
import Rollout.Proofs.Json.Written

/-! # Numerals read back

A reader of numbers takes the longest numeral that it finds, and gives the number of this numeral. -/
namespace Rollout
set_option autoImplicit false

namespace Json

/-! ## Runs of digits -/

theorem digitsOf_append {ds rest : List Char} (hds : ∀ c ∈ ds, c.isDigit = true)
    (hrest : ∀ c ∈ rest.head?, c.isDigit = false) : digitsOf (ds ++ rest) = ds := by
  rw [digitsOf, List.takeWhile_append_of_pos hds]
  cases rest with
  | nil => simp
  | cons c rest => simp [hrest c rfl]

theorem afterDigits_append {ds rest : List Char} (hds : ∀ c ∈ ds, c.isDigit = true)
    (hrest : ∀ c ∈ rest.head?, c.isDigit = false) : afterDigits (ds ++ rest) = rest := by
  rw [afterDigits, List.dropWhile_append_of_pos hds]
  cases rest with
  | nil => rfl
  | cons c rest => simp [hrest c rfl]

theorem digitsOf_append_afterDigits (cs : List Char) : digitsOf cs ++ afterDigits cs = cs :=
  List.takeWhile_append_dropWhile

theorem isDigit_of_mem_digitsOf {cs : List Char} : ∀ c ∈ digitsOf cs, c.isDigit = true :=
  fun _ hc => List.mem_takeWhile_imp hc

theorem isDigit_head?_afterDigits (cs : List Char) :
    ∀ c ∈ (afterDigits cs).head?, c.isDigit = false := by
  intro c hc
  have hnot := List.head?_dropWhile_not Char.isDigit cs
  rw [afterDigits] at hc
  rw [Option.mem_def.1 hc] at hnot
  exact hnot

/-! ## Parts of a numeral -/

theorem inRange_eq_ok_iff {x? : Option Binary64} {rest r : List Char} {n : Number} :
    inRange rest x? = .ok (n, r) ↔ x?.map Number.real = some n ∧ r = rest := by
  cases x? with
  | none => simp [inRange, before]
  | some x => simp [inRange, eq_comm]

theorem real_eq_ok_iff {negative : Bool} {d : Decimal} {rest r : List Char} {n : Number} :
    real negative d rest = .ok (n, r) ↔ (d.scaled? negative).map Number.real = some n ∧ r = rest :=
  inRange_eq_ok_iff

theorem integer_eq_ok_iff {negative : Bool} {d : Decimal} {rest r : List Char} {n : Number} :
    integer negative d rest = .ok (n, r) ↔ Numeral.integer? negative d = some n ∧ r = rest := by
  have hreal := @real_eq_ok_iff negative d rest r n
  simp only [integer, Numeral.integer?, Numeral.signed]
  generalize (if negative = true then -(d.digits : ℤ) else d.digits) = i
  generalize real negative d rest = scaled at hreal ⊢
  generalize (d.scaled? negative).map Number.real = x? at hreal ⊢
  split
  · exact hreal
  · cases Number.ofInt? i with
    | none => rwa [Option.none_or]
    | some m => simp [eq_comm]

theorem exponentSign_append (e : Exponent) (rest : List Char) :
    exponentSign (e.sign ++ (e.digits.chars ++ rest)) = (e.down, e.digits.chars ++ rest) := by
  obtain ⟨letter, hletter, sign, hsign, ⟨ds, hne, hds⟩⟩ := e
  rcases hsign with rfl | rfl | rfl
  · obtain ⟨c, ds, rfl⟩ := List.exists_cons_of_ne_nil hne
    have hc : c.isDigit = true := hds c List.mem_cons_self
    have hplus : c ≠ '+' := by rintro rfl; cases hc
    have hminus : c ≠ '-' := by rintro rfl; cases hc
    show exponentSign (c :: (ds ++ rest)) = (false, c :: (ds ++ rest))
    rw [exponentSign]
    · exact fun _ h => hplus (List.cons.inj h).1
    · exact fun _ h => hminus (List.cons.inj h).1
  · rfl
  · rfl

theorem exponentDigits_eq_ok_iff {negative : Bool} {d : Decimal} {e : Exponent}
    {rest r : List Char} (hrest : ∀ c ∈ rest.head?, c.isDigit = false) {n : Number} :
    exponentDigits negative d e.down (e.digits.chars ++ rest) = .ok (n, r) ↔
      e.number? negative d = some n ∧ r = rest := by
  have hdigits := digitsOf_append e.digits.digits hrest
  have hafter := afterDigits_append e.digits.digits hrest
  have hvalue : (if e.down then d.exponent - (natOf e.digits.chars : ℤ)
      else d.exponent + (natOf e.digits.chars : ℤ)) = d.exponent + e.value := by
    rw [Exponent.value]
    split <;> omega
  obtain ⟨c, cs, hcons⟩ := List.exists_cons_of_ne_nil e.digits.nonempty
  have hc : c.isDigit = true := e.digits.digits c (hcons ▸ List.mem_cons_self)
  rw [hcons, List.cons_append] at hdigits hafter
  rw [hcons] at hvalue
  rw [Exponent.number?, hcons, List.cons_append, exponentDigits]
  simp only [hdigits, hafter, hvalue, hc, Bool.not_true, Bool.false_eq_true, if_false]
  have hreal := @real_eq_ok_iff negative ⟨d.digits, d.exponent + e.value⟩ rest r n
  have hzero := @real_eq_ok_iff negative ⟨0, 0⟩ rest r n
  generalize real negative _ rest = x at hreal ⊢
  generalize real negative _ rest = y at hzero ⊢
  generalize Option.map Number.real _ = x? at hreal ⊢
  generalize Option.map Number.real _ = y? at hzero ⊢
  cases excess? 0 (c :: cs) with
  | none => simpa using hreal
  | some more =>
    show (if _ then before (more ++ rest) .outOfRange else y) = _ ↔ (if _ then none else y?) = _ ∧ _
    split
    · simp [before]
    · exact hzero

theorem exponent_eq_ok_iff {negative : Bool} {d : Decimal} {e : Exponent} {rest r : List Char}
    (hrest : ∀ c ∈ rest.head?, c.isDigit = false) {n : Number} :
    exponent negative d (e.sign ++ (e.digits.chars ++ rest)) = .ok (n, r) ↔
      e.number? negative d = some n ∧ r = rest := by
  rw [exponent, exponentSign_append]
  exact exponentDigits_eq_ok_iff hrest

/-! ## Behind the digits before the point -/

theorem absorb_nil (n : ℕ) : absorb n [] = (n, []) := rfl

/-- The decimal of digits with and without a point among them, as far as 64 bits hold them. -/
def absorbed (whole places : List Char) : Decimal :=
  ⟨(absorb (absorb 0 whole).1 places).1, (absorb 0 whole).2.length -
    (places.length - (absorb (absorb 0 whole).1 places).2.length : ℕ)⟩

theorem absorbed_nil (whole : List Char) :
    absorbed whole [] = ⟨(absorb 0 whole).1, (absorb 0 whole).2.length⟩ := by
  simp [absorbed, absorb_nil]

section

variable {negative : Bool} {whole rest : List Char}

theorem afterWhole_integer (hrest : ∀ c ∈ rest.head?, c ≠ '.' ∧ c ≠ 'e' ∧ c ≠ 'E') :
    afterWhole negative whole rest = integer negative (absorbed whole []) rest := by
  rw [absorbed_nil]
  cases rest with
  | nil => rfl
  | cons c rest =>
    obtain ⟨hdot, he, hE⟩ := hrest c rfl
    simp [afterWhole, hdot, he, hE]

theorem afterWhole_exponent (e : Exponent) : afterWhole negative whole (e.chars ++ rest) =
    exponent negative (absorbed whole []) (e.sign ++ (e.digits.chars ++ rest)) := by
  rw [absorbed_nil, Exponent.chars, List.cons_append, List.append_assoc]
  rcases e.isLetter with h | h <;> simp only [h, afterWhole]

theorem afterWhole_places (ds : Digits)
    (hrest : ∀ c ∈ rest.head?, c.isDigit = false ∧ c ≠ 'e' ∧ c ≠ 'E') :
    afterWhole negative whole ('.' :: (ds.chars ++ rest)) =
      real negative (absorbed whole ds.chars) rest := by
  have hdigits := digitsOf_append ds.digits fun c hc => (hrest c hc).1
  have hafter := afterDigits_append ds.digits fun c hc => (hrest c hc).1
  obtain ⟨d, cs, hcons⟩ := List.exists_cons_of_ne_nil ds.nonempty
  simp only [afterWhole, hdigits, hafter, absorbed]
  rw [hcons]
  cases rest with
  | nil => rfl
  | cons c rest =>
    obtain ⟨-, he, hE⟩ := hrest c rfl
    simp [he, hE]

theorem afterWhole_scientific (ds : Digits) (e : Exponent) :
    afterWhole negative whole ('.' :: (ds.chars ++ (e.chars ++ rest))) =
      exponent negative (absorbed whole ds.chars) (e.sign ++ (e.digits.chars ++ rest)) := by
  have hletter : ∀ c ∈ (e.chars ++ rest).head?, c.isDigit = false := by
    rintro _ ⟨⟩
    rcases e.isLetter with h | h <;> rw [h] <;> rfl
  have hdigits := digitsOf_append ds.digits hletter
  have hafter := afterDigits_append ds.digits hletter
  obtain ⟨d, cs, hcons⟩ := List.exists_cons_of_ne_nil ds.nonempty
  simp only [afterWhole, hdigits, hafter, absorbed]
  rw [hcons, Exponent.chars, List.cons_append, List.append_assoc]
  rcases e.isLetter with h | h <;> simp only [h]

end

/-! ## Numerals -/

/-- What follows does not go on with the numeral. -/
def Numeral.EndsBefore (x : Numeral) (rest : List Char) : Prop :=
  ∀ c ∈ rest.head?, c.isDigit = false ∧ (x.tail.exponent? = none → c ≠ 'e' ∧ c ≠ 'E') ∧
    (x.tail = .integer → c ≠ '.')

theorem Numeral.kept_eq (x : Numeral) : x.kept = absorbed x.whole.chars x.tail.digits := rfl

theorem afterWhole_eq_ok_iff {x : Numeral} {rest r : List Char} (hrest : x.EndsBefore rest)
    {n : Number} :
    afterWhole x.negative x.whole.chars (x.tail.chars ++ rest) = .ok (n, r) ↔
      x.number? = some n ∧ r = rest := by
  rw [Numeral.number?, x.kept_eq]
  rw [Numeral.EndsBefore] at hrest
  generalize x.tail = tail at hrest ⊢
  cases tail with
  | integer =>
    rw [Tail.chars, List.nil_append, afterWhole_integer fun c hc => ?_]
    · exact integer_eq_ok_iff
    · obtain ⟨-, hletter, hdot⟩ := hrest c hc
      exact ⟨hdot rfl, (hletter rfl).1, (hletter rfl).2⟩
  | exponent e =>
    rw [Tail.chars, afterWhole_exponent]
    exact exponent_eq_ok_iff fun c hc => (hrest c hc).1
  | places ds =>
    rw [Tail.chars, List.cons_append, afterWhole_places ds fun c hc => ?_]
    · exact real_eq_ok_iff
    · obtain ⟨hdigit, hletter, -⟩ := hrest c hc
      exact ⟨hdigit, hletter rfl⟩
  | scientific ds e =>
    rw [Tail.chars, List.cons_append, List.append_assoc, afterWhole_scientific]
    exact exponent_eq_ok_iff fun c hc => (hrest c hc).1

theorem number_eq_afterWhole (x : Numeral) {cs : List Char}
    (hcs : ∀ c ∈ cs.head?, c.isDigit = false) :
    number x.negative (x.whole.chars ++ cs) = afterWhole x.negative x.whole.chars cs := by
  have hzero := x.zero
  have hdigits := digitsOf_append x.whole.digits hcs
  have hafter := afterDigits_append x.whole.digits hcs
  obtain ⟨c, ds, hcons⟩ := List.exists_cons_of_ne_nil x.whole.nonempty
  have hc : c.isDigit = true := x.whole.digits c (hcons ▸ List.mem_cons_self)
  rw [hcons] at hzero hdigits hafter ⊢
  by_cases h0 : c = '0'
  · subst h0
    obtain rfl : ds = [] := (List.cons.inj (hzero rfl)).2
    cases cs with
    | nil => rfl
    | cons c cs => simp [number, hcs c rfl]
  · rw [List.cons_append] at hdigits hafter ⊢
    rw [number, hdigits, hafter, if_pos hc]
    exact fun h => h0 h

/-- A numeral is read as its number, whatever follows that does not go on with it. -/
theorem number_eq_ok_iff {x : Numeral} {rest r : List Char} (hrest : x.EndsBefore rest)
    {n : Number} :
    number x.negative (x.body ++ rest) = .ok (n, r) ↔ x.number? = some n ∧ r = rest := by
  have htail : ∀ c ∈ (x.tail.chars ++ rest).head?, c.isDigit = false := by
    rw [Numeral.EndsBefore] at hrest
    generalize x.tail = tail at hrest ⊢
    cases tail with
    | integer => exact fun c hc => (hrest c hc).1
    | exponent e =>
      rintro _ ⟨⟩
      rcases e.isLetter with h | h <;> rw [h] <;> rfl
    | places ds => rintro _ ⟨⟩; rfl
    | scientific ds e => rintro _ ⟨⟩; rfl
  rw [Numeral.body, List.append_assoc, number_eq_afterWhole x htail]
  exact afterWhole_eq_ok_iff hrest

/-! ## Every number that is read is a numeral -/

/-- The digits at the front of a text that starts with one. -/
def Digits.front (cs : List Char) (h : digitsOf cs ≠ []) : Digits :=
  ⟨digitsOf cs, h, isDigit_of_mem_digitsOf⟩

theorem Digits.front_append (cs : List Char) (h : digitsOf cs ≠ []) :
    (Digits.front cs h).chars ++ afterDigits cs = cs :=
  digitsOf_append_afterDigits cs

theorem digitsOf_ne_nil {c : Char} {cs : List Char} (hc : c.isDigit = true) :
    digitsOf (c :: cs) ≠ [] := by
  simp [digitsOf, hc]

theorem exists_exponentSign (cs : List Char) : ∃ sign,
    (sign = [] ∨ sign = ['+'] ∨ sign = ['-']) ∧ cs = sign ++ (exponentSign cs).2 := by
  unfold exponentSign
  split
  · exact ⟨['+'], .inr (.inl rfl), rfl⟩
  · exact ⟨['-'], .inr (.inr rfl), rfl⟩
  · exact ⟨[], .inl rfl, rfl⟩

theorem exists_exponent {negative : Bool} {d : Decimal} {cs : List Char}
    {a : Number × List Char} (h : exponent negative d cs = .ok a) {letter : Char}
    (hletter : letter = 'e' ∨ letter = 'E') : ∃ (e : Exponent) (rest : List Char),
      letter :: cs = e.chars ++ rest ∧ ∀ c ∈ rest.head?, c.isDigit = false := by
  obtain ⟨sign, hsign, hcs⟩ := exists_exponentSign cs
  unfold exponent exponentDigits at h
  split at h
  · cases h
  · rename_i c ds hds
    split at h
    · cases h
    · rename_i hc
      have hne : digitsOf (exponentSign cs).2 ≠ [] := by
        rw [hds]
        exact digitsOf_ne_nil (by simpa using hc)
      refine ⟨⟨letter, hletter, sign, hsign, Digits.front _ hne⟩, afterDigits (exponentSign cs).2,
        ?_, isDigit_head?_afterDigits _⟩
      rw [Exponent.chars, List.cons_append, List.append_assoc, Digits.front_append, ← hcs]

/-- A point has digits behind it, and perhaps an exponent. -/
theorem exists_places {negative : Bool} {whole cs : List Char} {a : Number × List Char}
    (h : afterWhole negative whole ('.' :: cs) = .ok a) :
    ∃ (tail : Tail) (rest : List Char), '.' :: cs = tail.chars ++ rest ∧ tail ≠ .integer ∧
      ∀ c ∈ rest.head?, c.isDigit = false ∧ (tail.exponent? = none → c ≠ 'e' ∧ c ≠ 'E') := by
  have hsplit := digitsOf_append_afterDigits cs
  have hend := isDigit_head?_afterDigits cs
  by_cases hne : digitsOf cs = []
  · cases hafter : afterDigits cs <;> simp [afterWhole, hne, hafter, atEnd, atFirst] at h
  · cases hafter : afterDigits cs with
    | nil =>
      refine ⟨.places (Digits.front cs hne), [], ?_, Tail.noConfusion, by simp⟩
      rw [Tail.chars, List.cons_append, ← hafter, Digits.front_append]
    | cons c rest =>
      rw [hafter] at hsplit hend
      by_cases hletter : c = 'e' ∨ c = 'E'
      · have hexponent : ∃ d, exponent negative d rest = .ok a := by
          obtain ⟨digit, ds, hds⟩ := List.exists_cons_of_ne_nil hne
          rcases hletter with rfl | rfl <;> simp only [afterWhole, hds, hafter] at h <;>
            exact ⟨_, h⟩
        obtain ⟨d, hd⟩ := hexponent
        obtain ⟨e, rest', he, hrest⟩ := exists_exponent hd hletter
        refine ⟨.scientific (Digits.front cs hne) e, rest', ?_, Tail.noConfusion, fun c hc =>
          ⟨hrest c hc, by simp [Tail.exponent?]⟩⟩
        rw [Tail.chars, List.cons_append, List.append_assoc, ← he, ← hafter, Digits.front_append]
      · refine ⟨.places (Digits.front cs hne), c :: rest, ?_, Tail.noConfusion, ?_⟩
        · rw [Tail.chars, List.cons_append, ← hafter, Digits.front_append]
        · rintro _ ⟨⟩
          exact ⟨hend c rfl, fun _ => not_or.1 hletter⟩

theorem exists_tail {negative : Bool} {whole cs : List Char} {a : Number × List Char}
    (hcs : ∀ c ∈ cs.head?, c.isDigit = false) (h : afterWhole negative whole cs = .ok a) :
    ∃ (tail : Tail) (rest : List Char), cs = tail.chars ++ rest ∧
      ∀ c ∈ rest.head?, c.isDigit = false ∧ (tail.exponent? = none → c ≠ 'e' ∧ c ≠ 'E') ∧
        (tail = .integer → c ≠ '.') := by
  cases cs with
  | nil => exact ⟨.integer, [], rfl, by simp⟩
  | cons c cs =>
    by_cases hdot : c = '.'
    · subst hdot
      obtain ⟨tail, rest, hchars, hne, hrest⟩ := exists_places h
      exact ⟨tail, rest, hchars, fun c hc =>
        ⟨(hrest c hc).1, (hrest c hc).2, fun htail => absurd htail hne⟩⟩
    · by_cases hletter : c = 'e' ∨ c = 'E'
      · have hexponent : ∃ d, exponent negative d cs = .ok a := by
          rcases hletter with rfl | rfl <;> exact ⟨_, h⟩
        obtain ⟨d, hd⟩ := hexponent
        obtain ⟨e, rest, he, hrest⟩ := exists_exponent hd hletter
        exact ⟨.exponent e, rest, he, fun c hc =>
          ⟨hrest c hc, by simp [Tail.exponent?], by simp⟩⟩
      · refine ⟨.integer, c :: cs, rfl, ?_⟩
        rintro _ ⟨⟩
        exact ⟨hcs c rfl, fun _ => not_or.1 hletter, fun _ => hdot⟩

theorem exists_whole {negative : Bool} {cs : List Char} {a : Number × List Char}
    (h : number negative cs = .ok a) : ∃ (whole : Digits) (rest : List Char),
      (whole.chars.head? = some '0' → whole.chars = ['0']) ∧ cs = whole.chars ++ rest ∧
      ∀ c ∈ rest.head?, c.isDigit = false := by
  unfold number at h
  split at h
  · cases h
  · rename_i rest
    refine ⟨⟨['0'], by simp, List.all_eq_true.1 rfl⟩, rest, fun _ => rfl, rfl, fun c hc => ?_⟩
    cases rest with
    | nil => cases hc
    | cons d rest =>
      obtain rfl : d = c := Option.some.inj hc
      cases hdigit : d.isDigit with
      | false => rfl
      | true => simp [hdigit, atFirst] at h
  · rename_i c rest h0
    split at h
    · rename_i hc
      refine ⟨Digits.front _ (digitsOf_ne_nil hc), afterDigits (c :: rest), ?_,
        (Digits.front_append _ _).symm, isDigit_head?_afterDigits _⟩
      intro hhead
      simp [Digits.front, digitsOf, hc] at hhead
      exact absurd hhead h0
    · cases h

/-- Every number that is read is the number of a numeral. -/
theorem exists_numeral {negative : Bool} {cs rest : List Char} {n : Number}
    (h : number negative cs = .ok (n, rest)) :
    ∃ x : Numeral, x.negative = negative ∧ cs = x.body ++ rest ∧ x.number? = some n := by
  obtain ⟨whole, cs', hzero, rfl, hend⟩ := exists_whole h
  have hafter : afterWhole negative whole.chars cs' = .ok (n, rest) := by
    rwa [number_eq_afterWhole ⟨negative, whole, hzero, .integer⟩ hend] at h
  obtain ⟨tail, rest', rfl, hrest⟩ := exists_tail hend hafter
  let x : Numeral := ⟨negative, whole, hzero, tail⟩
  obtain ⟨hnumber, rfl⟩ := (afterWhole_eq_ok_iff (x := x) hrest).1 hafter
  exact ⟨x, rfl, (List.append_assoc _ _ _).symm, hnumber⟩

end Json

end Rollout
