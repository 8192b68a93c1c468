import Mathlib.Order.Lattice
import Rollout.Proofs.Json.Numeral

/-! # Reading is undoing writing

The reader of JSON texts takes exactly the texts of written values, nested at most so deep, and gives
the document of each. -/
namespace Rollout
set_option autoImplicit false

namespace Json

/-! ## Texts -/

theorem text_plain {c : Char} (h : c ≠ '\x22' ∧ c ≠ '\x5c' ∧ 0x20 ≤ c.toNat) (cs : List Char) :
    text (c :: cs) = prepend c (text cs) := by
  obtain ⟨hquote, hslash, hcontrol⟩ := h
  rw [text]
  · rw [if_neg (by omega)]
  all_goals simp [hquote, hslash]

theorem text_escape {letter meant : Char} (h : escaped? letter = some meant) (cs : List Char) :
    text ('\x5c' :: letter :: cs) = prepend meant (text cs) := by
  have hu : letter ≠ 'u' := by
    rintro rfl
    cases h
  rw [text]
  · rw [h]
  all_goals simp [hu]

theorem text_code {u : Code}
    (h : Text.isLowSurrogate u.unit = false ∧ Text.isHighSurrogate u.unit = false)
    (cs : List Char) : text (u.chars ++ cs) = prepend (Char.ofNat u.unit) (text cs) := by
  rw [Code.chars]
  simp only [List.cons_append, List.nil_append]
  rw [text]
  simp [u.reads, h.1, h.2]

theorem text_pair {high low : Code}
    (h : Text.isHighSurrogate high.unit = true ∧ Text.isLowSurrogate low.unit = true)
    (cs : List Char) : text (high.chars ++ (low.chars ++ cs)) =
      prepend (Text.ofSurrogates high.unit low.unit) (text cs) := by
  have hlow : Text.isLowSurrogate high.unit = false := by
    have hhigh := h.1
    simp [Text.isHighSurrogate, Text.isLowSurrogate] at hhigh ⊢
    omega
  rw [Code.chars, Code.chars]
  simp only [List.cons_append, List.nil_append]
  rw [text]
  simp [high.reads, low.reads, h.1, h.2, hlow]

theorem text_append_piece (p : Piece) (cs : List Char) :
    text (p.chars ++ cs) = prepend p.meant (text cs) := by
  cases p with
  | plain c h => exact text_plain h cs
  | escape letter meant h => exact text_escape h cs
  | code u h => exact text_code h cs
  | pair high low h => exact (List.append_assoc _ _ _).symm ▸ text_pair h cs

theorem text_spelled (ps : List Piece) (rest : List Char) :
    text (spelled ps ++ rest) = .ok (ps.map Piece.meant, rest) := by
  induction ps with
  | nil => rfl
  | cons p ps ih =>
    have hcons : spelled (p :: ps) ++ rest = p.chars ++ (spelled ps ++ rest) := by
      simp [spelled]
    rw [hcons, text_append_piece, ih]
    rfl

theorem prepend_eq_ok_iff {c : Char} {r : Except Failure (List Char × List Char)}
    {meant rest : List Char} :
    prepend c r = .ok (meant, rest) ↔ ∃ cs, r = .ok (cs, rest) ∧ meant = c :: cs := by
  rcases r with e | ⟨cs, rest'⟩
  · simp [prepend]
  · simp only [prepend, Except.ok.injEq, Prod.mk.injEq]
    exact ⟨fun h => ⟨cs, ⟨rfl, h.2⟩, h.1.symm⟩, by rintro ⟨_, ⟨rfl, h⟩, rfl⟩; exact ⟨rfl, h⟩⟩

theorem badUnit_ne_ok {α : Type} (cs : List Char) (a : α × List Char) :
    (badUnit cs : Except Failure (α × List Char)) ≠ .ok a := by
  unfold badUnit
  split <;> exact fun h => by cases h

/-- A piece goes before the pieces that are read after it. -/
theorem exists_spelled_cons (p : Piece) {cs rest meant : List Char}
    (h : prepend p.meant (text cs) = .ok (meant, rest))
    (ih : ∀ {meant}, text cs = .ok (meant, rest) →
      ∃ ps : List Piece, cs = spelled ps ++ rest ∧ ps.map Piece.meant = meant) :
    ∃ ps : List Piece, p.chars ++ cs = spelled ps ++ rest ∧ ps.map Piece.meant = meant := by
  obtain ⟨meant', hread, rfl⟩ := prepend_eq_ok_iff.1 h
  obtain ⟨ps, rfl, rfl⟩ := ih hread
  exact ⟨p :: ps, by simp [spelled], rfl⟩

theorem exists_spelled {cs rest meant : List Char} (h : text cs = .ok (meant, rest)) :
    ∃ ps : List Piece, cs = spelled ps ++ rest ∧ ps.map Piece.meant = meant := by
  -- Of the cases of the reader five go on or end well.
  fun_induction text cs generalizing meant with
  | case2 =>
    cases h
    exact ⟨[], rfl, rfl⟩
  | case6 a b c d more unit hread hlow hhigh ih =>
    have hplain : Text.isLowSurrogate unit = false ∧ Text.isHighSurrogate unit = false :=
      ⟨by simpa using hlow, by simpa using hhigh⟩
    exact exists_spelled_cons (.code ⟨a, b, c, d, unit, hread⟩ hplain) h ih
  | case10 a b c d high hhigh _ hsurrogate e f g k more low hlow hsurrogate' ih =>
    have hpair : Text.isHighSurrogate high = true ∧ Text.isLowSurrogate low = true :=
      ⟨by simpa using hsurrogate, hsurrogate'⟩
    exact exists_spelled_cons (.pair ⟨a, b, c, d, high, hhigh⟩ ⟨e, f, g, k, low, hlow⟩ hpair) h ih
  | case16 letter more _ _ meant' hread ih =>
    exact exists_spelled_cons (.escape letter meant' hread) h ih
  | case19 c more hquote hend _ _ hslash hcontrol ih =>
    refine exists_spelled_cons (.plain c ⟨hquote, ?_, by omega⟩) h ih
    rintro rfl
    cases more with
    | nil => exact hend rfl rfl
    | cons d more => exact hslash d more rfl rfl
  | case4 => exact absurd h (badUnit_ne_ok _ _)
  | case9 => exact absurd h (badUnit_ne_ok _ _)
  | case12 => exact absurd h (badUnit_ne_ok _ _)
  | case15 => exact absurd h (badUnit_ne_ok _ _)
  | _ => cases h

/-! ## Blanks -/

theorem skipSpace_append (b : Blank) (cs : List Char) : skipSpace (b.chars ++ cs) = skipSpace cs :=
  List.dropWhile_append_of_pos b.spaces

theorem skipSpace_of_head {cs : List Char} (h : ∀ c ∈ cs.head?, isSpace c = false) :
    skipSpace cs = cs := by
  cases cs with
  | nil => rfl
  | cons c cs => simp [skipSpace, h c rfl]

theorem skipSpace_append_cons (b : Blank) {c : Char} (hc : isSpace c = false) (cs : List Char) :
    skipSpace (b.chars ++ c :: cs) = c :: cs := by
  rw [skipSpace_append]
  refine skipSpace_of_head ?_
  rintro _ ⟨⟩
  exact hc

theorem exists_blank (cs : List Char) : ∃ b : Blank, cs = b.chars ++ skipSpace cs :=
  ⟨⟨cs.takeWhile isSpace, fun _ hc => List.mem_takeWhile_imp hc⟩,
    List.takeWhile_append_dropWhile.symm⟩

def Blank.append (a b : Blank) : Blank :=
  ⟨a.chars ++ b.chars, fun c hc => (List.mem_append.1 hc).elim (a.spaces c) (b.spaces c)⟩

/-! ## What follows a value -/

/-- A value ends before a blank, a comma, a closing bracket or the end. -/
def Follows (rest : List Char) : Prop :=
  ∀ c ∈ rest.head?, isSpace c = true ∨ c = ',' ∨ c = ']' ∨ c = '\x7d'

theorem follows_append_cons (b : Blank) {c : Char} (hc : c = ',' ∨ c = ']' ∨ c = '\x7d')
    (rest : List Char) : Follows (b.chars ++ c :: rest) := by
  have hspaces := b.spaces
  cases hb : b.chars with
  | nil =>
    rintro _ ⟨⟩
    exact .inr hc
  | cons d ds =>
    rw [hb] at hspaces
    rintro _ ⟨⟩
    exact .inl (hspaces d List.mem_cons_self)

theorem follows_blank (b : Blank) : Follows b.chars := fun c hc =>
  .inl (b.spaces c (List.mem_of_mem_head? hc))

theorem Follows.endsBefore {rest : List Char} (h : Follows rest) (x : Numeral) :
    x.EndsBefore rest := by
  intro c hc
  rcases h c hc with hspace | rfl | rfl | rfl
  · simp only [isSpace, Bool.or_eq_true, decide_eq_true_eq] at hspace
    rcases hspace with ((rfl | rfl) | rfl) | rfl <;> simp [Char.isDigit]
  all_goals simp [Char.isDigit]

/-! ## Written values are read -/

theorem Numeral.exists_body (x : Numeral) : ∃ c cs, x.body = c :: cs ∧ c.isDigit = true := by
  obtain ⟨c, cs, hcons⟩ := List.exists_cons_of_ne_nil x.whole.nonempty
  refine ⟨c, cs ++ x.tail.chars, ?_, x.whole.digits c (hcons ▸ List.mem_cons_self)⟩
  rw [Numeral.body, hcons, List.cons_append]

theorem ne_of_isDigit {c d : Char} (hc : c.isDigit = true) (hd : d.isDigit = false) : c ≠ d := by
  rintro rfl
  rw [hc] at hd
  cases hd

theorem isSpace_of_isDigit {c : Char} (hc : c.isDigit = true) : isSpace c = false := by
  have h1 := ne_of_isDigit (d := ' ') hc (by decide)
  have h2 := ne_of_isDigit (d := '\t') hc (by decide)
  have h3 := ne_of_isDigit (d := '\n') hc (by decide)
  have h4 := ne_of_isDigit (d := '\r') hc (by decide)
  simp [isSpace, h1, h2, h3, h4]

/-- A value starts with a character that is no blank and does not close a list. -/
theorem Scalar.exists_head (x : Scalar) :
    ∃ c cs, x.chars = c :: cs ∧ isSpace c = false ∧ c ≠ ']' := by
  cases x with
  | null => exact ⟨_, _, rfl, by decide, by decide⟩
  | boolean b => cases b <;> exact ⟨_, _, rfl, by decide, by decide⟩
  | text ps => exact ⟨_, _, rfl, by decide, by decide⟩
  | number x n h =>
    rw [Scalar.chars, Numeral.chars]
    split
    · exact ⟨_, _, rfl, by decide, by decide⟩
    · obtain ⟨c, cs, hbody, hc⟩ := x.exists_body
      exact ⟨c, cs, hbody, isSpace_of_isDigit hc, ne_of_isDigit hc (by decide)⟩

theorem Written.exists_head (w : Written) :
    ∃ c cs, w.chars = c :: cs ∧ isSpace c = false ∧ c ≠ ']' := by
  cases w with
  | scalar x => exact x.exists_head
  | _ => exact ⟨_, _, rfl, by decide, by decide⟩

theorem Items.exists_head (items : Items) :
    ∃ c cs, items.chars = c :: cs ∧ isSpace c = false ∧ c ≠ ']' := by
  cases items with
  | last w after =>
    obtain ⟨c, cs, hcons, hc⟩ := w.exists_head
    exact ⟨c, _, by rw [Items.chars, hcons, List.cons_append], hc⟩
  | cons w after next rest =>
    obtain ⟨c, cs, hcons, hc⟩ := w.exists_head
    exact ⟨c, _, by rw [Items.chars, hcons, List.cons_append], hc⟩

theorem valueWith_scalar (inside : Char → Reader Document) (x : Scalar) {rest : List Char}
    (hrest : Follows rest) : valueWith inside (x.chars ++ rest) = .ok (x.document, rest) := by
  have hskip : skipSpace (x.chars ++ rest) = x.chars ++ rest := by
    obtain ⟨c, cs, hcons, hc, -⟩ := x.exists_head
    rw [hcons]
    refine skipSpace_of_head ?_
    rintro _ ⟨⟩
    exact hc
  rw [valueWith, hskip]
  cases x with
  | null => rfl
  | boolean b => cases b <;> rfl
  | text ps =>
    simp [Scalar.chars, text_spelled, Except.map, Scalar.document]
  | number x n h =>
    have hnumber := (number_eq_ok_iff (hrest.endsBefore x)).2 ⟨h, rfl⟩
    rw [Scalar.chars, Numeral.chars]
    cases hneg : x.negative with
    | true =>
      rw [hneg] at hnumber
      simp [hnumber, Except.map, Scalar.document]
    | false =>
      rw [hneg] at hnumber
      obtain ⟨c, cs, hbody, hc⟩ := x.exists_body
      rw [hbody] at hnumber ⊢
      have hn := ne_of_isDigit (d := 'n') hc (by decide)
      have ht := ne_of_isDigit (d := 't') hc (by decide)
      have hf := ne_of_isDigit (d := 'f') hc (by decide)
      have hquote := ne_of_isDigit (d := '\x22') hc (by decide)
      have hminus := ne_of_isDigit (d := '-') hc (by decide)
      rw [List.cons_append] at hnumber
      simp [hnumber, Except.map, Scalar.document, hn, ht, hf, hquote, hminus, hc]

theorem valueWith_inside (inside : Char → Reader Document) {c : Char} (hc : c = '[' ∨ c = '\x7b')
    (cs : List Char) : valueWith inside (c :: cs) = inside c cs := by
  rcases hc with rfl | rfl <;> rfl

section

variable {item : Reader Document} {c : Char} {cs more rest : List Char}

theorem container_list (hskip : skipSpace cs = c :: more) (hc : c ≠ ']') : container item '[' cs =
    (items item (c :: more).length (c :: more)).map fun r => (.list r.1, r.2) := by
  simp [container, hskip, hc]

theorem container_object (hskip : skipSpace cs = '\x22' :: more) : container item '\x7b' cs =
    (members item (more.length + 1) [] more).map fun r => (.object r.1, r.2) := by
  simp [container, hskip]

theorem items_last {d : Document} {fuel : ℕ} (hitem : item cs = .ok (d, more))
    (hskip : skipSpace more = ']' :: rest) : items item (fuel + 1) cs = .ok ([d], rest) := by
  simp [items, hitem, hskip]

theorem items_cons {d : Document} {fuel : ℕ} {after : List Char} {ds : List Document}
    (hitem : item cs = .ok (d, more)) (hskip : skipSpace more = ',' :: after)
    (hnext : skipSpace after = c :: rest) (hc : c ≠ ']') {r : List Char}
    (hmore : items item fuel (c :: rest) = .ok (ds, r)) :
    items item (fuel + 1) cs = .ok (d :: ds, r) := by
  simp [items, hitem, hskip, hnext, hc, hmore]

theorem members_last {d : Document} {fuel : ℕ} {key after : List Char} {es : Entries Document}
    (hkey : text cs = .ok (key, more)) (hcolon : skipSpace more = ':' :: after)
    {end? : List Char} (hitem : item after = .ok (d, end?))
    (hskip : skipSpace end? = '\x7d' :: rest) :
    members item (fuel + 1) es cs = .ok (es.put (String.ofList key) d, rest) := by
  simp [members, hkey, hcolon, hitem, hskip]

theorem members_cons {d : Document} {fuel : ℕ} {key after : List Char} {es : Entries Document}
    (hkey : text cs = .ok (key, more)) (hcolon : skipSpace more = ':' :: after)
    {end? : List Char} (hitem : item after = .ok (d, end?)) {next : List Char}
    (hskip : skipSpace end? = ',' :: next) (hnext : skipSpace next = '\x22' :: rest) :
    members item (fuel + 1) es cs = members item fuel (es.put (String.ofList key) d) rest := by
  simp [members, hkey, hcolon, hitem, hskip, hnext]

end

theorem value_append_blank (b : Blank) {depth : ℕ} (cs : List Char) :
    value depth (b.chars ++ cs) = value depth cs := by
  cases depth <;> rw [value, valueWith, valueWith, skipSpace_append]

mutual

/-- A value is read where it may nest as deep as it does. -/
theorem value_written : (w : Written) → ∀ {depth : ℕ} {rest : List Char}, w.depth ≤ depth →
    Follows rest → value depth (w.chars ++ rest) = .ok (w.document, rest)
  | .scalar x, depth, rest, _, hrest => by
    cases depth <;> exact valueWith_scalar _ x hrest
  | .emptyList blank, 0, rest, hdepth, hrest => absurd hdepth (Nat.not_succ_le_zero 0)
  | .emptyList blank, depth + 1, rest, hdepth, hrest => by
    rw [Written.chars, List.cons_append, List.append_assoc, value, valueWith_inside _ (.inl rfl),
      container, if_pos rfl, List.singleton_append, skipSpace_append_cons blank (by decide)]
    rfl
  | .list blank is, 0, rest, hdepth, hrest => absurd hdepth (Nat.not_succ_le_zero _)
  | .list blank is, depth + 1, rest, hdepth, hrest => by
    obtain ⟨c, cs, hcons, hspace, hclose⟩ := is.exists_head
    have hfuel : is.chars.length ≤ (is.chars ++ rest).length := by simp
    have hread := items_written is rest (Nat.le_of_succ_le_succ hdepth) hfuel
    rw [hcons, List.cons_append] at hread
    rw [Written.chars, List.cons_append, List.append_assoc, value, valueWith_inside _ (.inl rfl),
      hcons, List.cons_append, container_list (skipSpace_append_cons blank hspace _) hclose, hread]
    rfl
  | .emptyObject blank, 0, rest, hdepth, hrest => absurd hdepth (Nat.not_succ_le_zero 0)
  | .emptyObject blank, depth + 1, rest, hdepth, hrest => by
    rw [Written.chars, List.cons_append, List.append_assoc, value, valueWith_inside _ (.inr rfl),
      container, if_neg (by decide), List.singleton_append,
      skipSpace_append_cons blank (by decide)]
    rfl
  | .object blank ms, 0, rest, hdepth, hrest => absurd hdepth (Nat.not_succ_le_zero _)
  | .object blank ms, depth + 1, rest, hdepth, hrest => by
    have hfuel : ms.chars.length ≤ (ms.chars ++ rest).length + 1 := by simp; omega
    have hread := members_written ms rest [] (Nat.le_of_succ_le_succ hdepth) hfuel
    rw [Written.chars, List.cons_append, List.append_assoc, value, valueWith_inside _ (.inr rfl),
      List.cons_append, container_object (skipSpace_append_cons blank (by decide) _), hread]
    rfl

theorem items_written : (is : Items) → ∀ {depth fuel : ℕ} (rest : List Char), is.depth ≤ depth →
    is.chars.length ≤ fuel → items (value depth) fuel (is.chars ++ rest) = .ok (is.documents, rest)
  | .last w after, depth, fuel, rest, hdepth, hfuel => by
    have hlength : 0 < (Items.last w after).chars.length := by
      simp only [Items.chars, List.length_append, List.length_cons]
      omega
    obtain ⟨fuel, rfl⟩ : ∃ n, fuel = n + 1 := ⟨fuel - 1, by omega⟩
    have hread := value_written w hdepth (follows_append_cons after (.inr (.inl rfl)) rest)
    rw [Items.chars, List.append_assoc, List.append_assoc, List.singleton_append]
    exact items_last hread (skipSpace_append_cons after (by decide) rest)
  | .cons w after next more, depth, fuel, rest, hdepth, hfuel => by
    have hlength : more.chars.length < (Items.cons w after next more).chars.length := by
      simp only [Items.chars, List.length_append, List.length_cons]
      omega
    obtain ⟨fuel, rfl⟩ : ∃ n, fuel = n + 1 := ⟨fuel - 1, by omega⟩
    obtain ⟨c, cs, hcons, hspace, hclose⟩ := more.exists_head
    have hfirst := value_written w (le_trans (le_max_left _ _) hdepth)
      (follows_append_cons after (.inl rfl) (next.chars ++ (more.chars ++ rest)))
    have hmore := items_written more rest (le_trans (le_max_right _ _) hdepth)
      (Nat.le_of_lt_succ (lt_of_lt_of_le hlength hfuel))
    rw [Items.chars]
    simp only [List.append_assoc, List.cons_append]
    rw [hcons, List.cons_append] at hfirst hmore ⊢
    exact items_cons hfirst (skipSpace_append_cons after (by decide) _)
      (skipSpace_append_cons next hspace _) hclose hmore

theorem members_written : (ms : Members) → ∀ {depth fuel : ℕ} (rest : List Char)
    (es : Entries Document), ms.depth ≤ depth → ms.chars.length ≤ fuel →
    members (value depth) fuel es (ms.chars ++ rest) = .ok (ms.put es, rest)
  | .last key before w after, depth, fuel, rest, es, hdepth, hfuel => by
    have hlength : 0 < (Members.last key before w after).chars.length := by
      simp only [Members.chars, List.length_append, List.length_cons]
      omega
    obtain ⟨fuel, rfl⟩ : ∃ n, fuel = n + 1 := ⟨fuel - 1, by omega⟩
    have hread := value_written w hdepth (follows_append_cons after (.inr (.inr rfl)) rest)
    rw [← value_append_blank before] at hread
    rw [Members.chars, Key.chars]
    simp only [List.append_assoc, List.cons_append, List.nil_append]
    exact members_last (text_spelled _ _) (skipSpace_append_cons key.gap (by decide) _) hread
      (skipSpace_append_cons after (by decide) rest)
  | .cons key before w after next more, depth, fuel, rest, es, hdepth, hfuel => by
    have hlength : more.chars.length < (Members.cons key before w after next more).chars.length := by
      simp only [Members.chars, List.length_append, List.length_cons]
      omega
    obtain ⟨fuel, rfl⟩ : ∃ n, fuel = n + 1 := ⟨fuel - 1, by omega⟩
    have hread := value_written w (le_trans (le_max_left _ _) hdepth)
      (follows_append_cons after (.inl rfl) (next.chars ++ '\x22' :: (more.chars ++ rest)))
    rw [← value_append_blank before] at hread
    have hmore := members_written more rest (es.put key.name w.document)
      (le_trans (le_max_right _ _) hdepth) (Nat.le_of_lt_succ (lt_of_lt_of_le hlength hfuel))
    rw [Members.chars, Key.chars, Members.put, ← hmore]
    simp only [List.append_assoc, List.cons_append, List.nil_append]
    exact members_cons (text_spelled _ _) (skipSpace_append_cons key.gap (by decide) _) hread
      (skipSpace_append_cons after (by decide) _) (skipSpace_append_cons next (by decide) _)

end

/-! ## Everything that is read is written -/

theorem word_eq_ok {d d' : Document} {ws cs rest : List Char} (h : word d ws cs = .ok (d', rest)) :
    cs = ws ++ rest ∧ d' = d := by
  induction ws generalizing cs with
  | nil =>
    cases h
    exact ⟨rfl, rfl⟩
  | cons w ws ih =>
    cases cs with
    | nil => cases h
    | cons c cs =>
      rw [word] at h
      split at h
      · rename_i hw
        obtain ⟨rfl, rfl⟩ := ih h
        exact ⟨by rw [hw, List.cons_append], rfl⟩
      · cases h

theorem map_eq_ok {α β : Type} {x : Except Failure (α × List Char)} {f : α → β} {b : β}
    {rest : List Char} (h : (x.map fun r => (f r.1, r.2)) = .ok (b, rest)) :
    ∃ a, x = .ok (a, rest) ∧ f a = b := by
  rcases x with e | ⟨a, rest'⟩
  · cases h
  · cases h
    exact ⟨a, rfl, rfl⟩

/-- A value that is read is a scalar or starts with an opening bracket. -/
theorem exists_valueWith {inside : Char → Reader Document} {cs rest : List Char} {d : Document}
    (h : valueWith inside cs = .ok (d, rest)) : ∃ b : Blank,
      (∃ x : Scalar, cs = b.chars ++ (x.chars ++ rest) ∧ x.document = d) ∨
      ∃ c more, (c = '[' ∨ c = '\x7b') ∧ cs = b.chars ++ c :: more ∧
        inside c more = .ok (d, rest) := by
  obtain ⟨b, hb⟩ := exists_blank cs
  refine ⟨b, ?_⟩
  rw [hb]
  unfold valueWith at h
  generalize skipSpace cs = more at h ⊢
  split at h
  · cases h
  · rename_i c more
    split at h
    · rename_i hc
      obtain ⟨rfl, rfl⟩ := word_eq_ok h
      exact .inl ⟨.null, by rw [hc]; rfl, rfl⟩
    split at h
    · rename_i hc
      obtain ⟨rfl, rfl⟩ := word_eq_ok h
      exact .inl ⟨.boolean true, by rw [hc]; rfl, rfl⟩
    split at h
    · rename_i hc
      obtain ⟨rfl, rfl⟩ := word_eq_ok h
      exact .inl ⟨.boolean false, by rw [hc]; rfl, rfl⟩
    split at h
    · rename_i hc
      obtain ⟨meant, htext, rfl⟩ := map_eq_ok (f := fun r => Document.text (String.ofList r)) h
      obtain ⟨ps, rfl, rfl⟩ := exists_spelled htext
      exact .inl ⟨.text ps, by rw [hc]; rfl, rfl⟩
    split at h
    · rename_i hc
      obtain ⟨n, hnumber, rfl⟩ := map_eq_ok h
      obtain ⟨x, hneg, rfl, hx⟩ := exists_numeral hnumber
      refine .inl ⟨.number x n hx, ?_, rfl⟩
      rw [hc, Scalar.chars, Numeral.chars, hneg]
      rfl
    split at h
    · obtain ⟨n, hnumber, rfl⟩ := map_eq_ok h
      obtain ⟨x, hneg, hcs, hx⟩ := exists_numeral hnumber
      refine .inl ⟨.number x n hx, ?_, rfl⟩
      rw [hcs, Scalar.chars, Numeral.chars, hneg]
      rfl
    split at h
    · rename_i hc
      exact .inr ⟨c, more, hc, rfl, h⟩
    · cases h

section

variable {item : Reader Document} {depth : ℕ}

/-- What `item` reads is written. -/
def ReadsWritten (item : Reader Document) (depth : ℕ) : Prop :=
  ∀ {cs rest : List Char} {d : Document}, item cs = .ok (d, rest) → ∃ (b : Blank) (w : Written),
    cs = b.chars ++ (w.chars ++ rest) ∧ w.document = d ∧ w.depth ≤ depth

theorem exists_items (hitem : ReadsWritten item depth) {fuel : ℕ} {cs rest : List Char}
    {ds : List Document} (h : items item fuel cs = .ok (ds, rest)) : ∃ (b : Blank) (is : Items),
      cs = b.chars ++ (is.chars ++ rest) ∧ is.documents = ds ∧ is.depth ≤ depth := by
  induction fuel generalizing cs ds with
  | zero => cases h
  | succ fuel ih =>
    rw [items] at h
    split at h
    · cases h
    · rename_i d more hd
      obtain ⟨b, w, rfl, rfl, hw⟩ := hitem hd
      obtain ⟨after, hafter⟩ := exists_blank more
      split at h
      · cases h
      · rename_i hskip
        cases h
        refine ⟨b, .last w after, ?_, rfl, hw⟩
        rw [hafter, hskip]
        simp [Items.chars]
      · rename_i behind hskip
        obtain ⟨next, hnext⟩ := exists_blank behind
        split at h
        · cases h
        · cases h
        · split at h
          · cases h
          · rename_i ds' rest' hmore
            cases h
            obtain ⟨b', is, his, rfl, hdepth⟩ := ih hmore
            refine ⟨b, .cons w after (next.append b') is, ?_, rfl, max_le hw hdepth⟩
            rw [hafter, hskip, hnext, his]
            simp [Items.chars, Blank.append]
      · cases h

theorem exists_members (hitem : ReadsWritten item depth) {fuel : ℕ} {cs rest : List Char}
    {es es' : Entries Document} (h : members item fuel es cs = .ok (es', rest)) : ∃ ms : Members,
      cs = ms.chars ++ rest ∧ ms.put es = es' ∧ ms.depth ≤ depth := by
  induction fuel generalizing cs es with
  | zero => cases h
  | succ fuel ih =>
    rw [members] at h
    split at h
    · cases h
    · rename_i key more hkey
      obtain ⟨ps, rfl, rfl⟩ := exists_spelled hkey
      obtain ⟨gap, hgap⟩ := exists_blank more
      split at h
      · cases h
      · rename_i value hcolon
        split at h
        · cases h
        · rename_i d behind hd
          obtain ⟨before, w, rfl, rfl, hw⟩ := hitem hd
          obtain ⟨after, hafter⟩ := exists_blank behind
          dsimp only at h
          split at h
          · cases h
          · rename_i hskip
            cases h
            refine ⟨.last ⟨ps, gap⟩ before w after, ?_, rfl, hw⟩
            rw [hgap, hcolon, hafter, hskip]
            simp [Members.chars, Key.chars]
          · rename_i comma hskip
            obtain ⟨next, hnext⟩ := exists_blank comma
            split at h
            · cases h
            · rename_i quote
              obtain ⟨ms, hms, rfl, hdepth⟩ := ih h
              refine ⟨.cons ⟨ps, gap⟩ before w after next ms, ?_, rfl, max_le hw hdepth⟩
              rw [hgap, hcolon, hafter, hskip, hnext, quote, hms]
              simp [Members.chars, Key.chars]
            · cases h
            · cases h
          · cases h
      · cases h

end

theorem exists_written {depth : ℕ} : ReadsWritten (value depth) depth := by
  induction depth with
  | zero =>
    intro cs rest d h
    obtain ⟨b, ⟨x, rfl, rfl⟩ | ⟨c, more, -, -, h⟩⟩ := exists_valueWith h
    · exact ⟨b, .scalar x, rfl, rfl, Nat.le_refl _⟩
    · cases h
  | succ depth ih =>
    intro cs rest d h
    obtain ⟨b, ⟨x, rfl, rfl⟩ | ⟨c, more, hc, hcs, hinside⟩⟩ := exists_valueWith h
    · exact ⟨b, .scalar x, rfl, rfl, Nat.zero_le _⟩
    · obtain ⟨blank, hblank⟩ := exists_blank more
      unfold container at hinside
      split at hinside
      · rename_i hlist
        split at hinside
        · cases hinside
        · rename_i hskip
          cases hinside
          refine ⟨b, .emptyList blank, ?_, rfl, Nat.succ_le_succ (Nat.zero_le _)⟩
          rw [hcs, hblank, hskip, hlist]
          simp [Written.chars]
        · obtain ⟨ds, hds, rfl⟩ := map_eq_ok hinside
          obtain ⟨b', is, his, rfl, hdepth⟩ := exists_items ih hds
          refine ⟨b, .list (blank.append b') is, ?_, rfl, Nat.succ_le_succ hdepth⟩
          rw [hcs, hblank, his, hlist]
          simp [Written.chars, Blank.append]
      · rename_i hlist
        have hobject : c = '\x7b' := hc.resolve_left hlist
        split at hinside
        · cases hinside
        · rename_i hskip
          cases hinside
          refine ⟨b, .emptyObject blank, ?_, rfl, Nat.succ_le_succ (Nat.zero_le _)⟩
          rw [hcs, hblank, hskip, hobject]
          simp [Written.chars]
        · rename_i quote hskip
          obtain ⟨es, hes, rfl⟩ := map_eq_ok hinside
          obtain ⟨ms, hms, rfl, hdepth⟩ := exists_members ih hes
          refine ⟨b, .object blank ms, ?_, rfl, Nat.succ_le_succ hdepth⟩
          rw [hcs, hblank, hskip, hms, hobject]
          simp [Written.chars]
        · cases hinside

/-! ## Whole texts -/

/-- The texts that are read are those of written values, and each is read as its document. -/
theorem read_eq_ok_iff {s : String} {d : Document} :
    read s = .ok d ↔ ∃ p : Page, p.text = s ∧ p.document = d := by
  constructor
  · intro h
    unfold read at h
    dsimp only at h
    split at h
    · cases h
    · rename_i d' rest hvalue
      obtain ⟨lead, w, hchars, rfl, hdepth⟩ := exists_written hvalue
      obtain ⟨trail, htrail⟩ := exists_blank rest
      split at h
      · rename_i hskip
        cases h
        refine ⟨⟨lead, w, trail, hdepth⟩, ?_, rfl⟩
        rw [hskip, List.append_nil] at htrail
        rw [Page.text, Page.chars, ← htrail, ← hchars, String.ofList_toList]
      · cases h
  · rintro ⟨p, rfl, rfl⟩
    have hvalue := value_written p.value p.depth_le (follows_blank p.trail)
    have hskip : skipSpace p.trail.chars = [] := by
      have happend := skipSpace_append p.trail []
      rwa [List.append_nil] at happend
    rw [← value_append_blank p.lead] at hvalue
    rw [read, Page.text, String.toList_ofList, Page.chars, hvalue]
    simp only [hskip]
    rfl

end Json

end Rollout
