import Mathlib.Data.List.TakeWhile
import Rollout.Proofs.Yaml.Portable

/-! # Scalars of JSON texts

A text in quotes is read for the characters it means, or refused for a pair of surrogates, and a word
without quotes, such as a numeral, for itself. Both readers leave the cursor behind what they have
read; where no quote closes it, the word takes the blanks after it, too. -/
namespace Rollout
set_option autoImplicit false

namespace Yaml

/-! ## Cursors -/

namespace Cursor

/-- The cursor behind some characters of its line, with what is ahead then. -/
def past (cur : Cursor) (cs rest : List Char) : Cursor :=
  ⟨rest, cur.bytes + Text.byteCount cs, cur.line, cur.column + cs.length⟩

theorem byteCount_append (cs ds : List Char) :
    Text.byteCount (cs ++ ds) = Text.byteCount cs + Text.byteCount ds := by
  induction cs with
  | nil => simp [Text.byteCount]
  | cons c cs ih =>
    have hcons : ∀ es, Text.byteCount (c :: es) = c.utf8Size + Text.byteCount es := fun _ => rfl
    rw [List.cons_append, hcons, hcons, ih, Nat.add_assoc]

theorem rest_past (cur : Cursor) (cs rest : List Char) : (cur.past cs rest).rest = rest := rfl

theorem column_past (cur : Cursor) (cs rest : List Char) :
    (cur.past cs rest).column = cur.column + cs.length := rfl

theorem past_past (cur : Cursor) (cs ds r rest : List Char) :
    (cur.past cs r).past ds rest = cur.past (cs ++ ds) rest := by
  simp [past, byteCount_append, Nat.add_assoc]

theorem past_nil {cur : Cursor} {rest : List Char} (h : cur.rest = rest) :
    cur.past [] rest = cur := by
  simp [past, Text.byteCount, ← h]

theorem advance_eq_past {cur : Cursor} (cs : List Char) {rest : List Char}
    (h : cur.rest = cs ++ rest) : cur.advance cs.length = cur.past cs rest := by
  simp [advance, past, h]

theorem advance_one {cur : Cursor} {c : Char} {rest : List Char} (h : cur.rest = c :: rest) :
    cur.advance 1 = cur.past [c] rest :=
  advance_eq_past [c] h

theorem atMarker_eq_false {cur : Cursor} (h : 0 < cur.column) : cur.atMarker = false := by
  simp [atMarker, Nat.ne_of_gt h]

/-- No marker starts with other characters than a hyphen or a dot, or has a second one. -/
theorem atMarker_of_head {cur : Cursor} {c : Char} {rest : List Char} (h : cur.rest = c :: rest)
    (hc : (c ≠ '-' ∨ rest.head? ≠ some '-') ∧ c ≠ '.') : cur.atMarker = false := by
  unfold atMarker
  rw [h]
  split
  · rename_i a b d more heq
    obtain ⟨rfl, rfl⟩ := List.cons.inj heq
    have hnot : ¬(c = b ∧ (c = '-' ∨ c = '.')) := by
      rintro ⟨rfl, rfl | rfl⟩
      · exact hc.1.elim (fun h => h rfl) fun h => h rfl
      · exact hc.2 rfl
    by_cases hcb : c = b
    · have hhyphen : c ≠ '-' := fun he => hnot ⟨hcb, .inl he⟩
      simp [hhyphen, hc.2]
    · simp [hcb]
  · simp

theorem lineBreak?_eq_none {cur : Cursor} {c : Char} {rest : List Char} (h : cur.rest = c :: rest)
    (hc : isBreak c = false) : cur.lineBreak? = none := by
  have hr : c ≠ '\r' := by
    rintro rfl
    cases hc
  unfold lineBreak?
  rw [h]
  split
  · rename_i heq
    exact absurd (List.cons.inj heq).1 hr
  · rename_i heq
    obtain ⟨rfl, rfl⟩ := List.cons.inj heq
    simp [hc]
  · rfl

/-- A line break of JSON leads to the next line; carriage return and line feed are one. -/
theorem exists_lineBreak? {cur : Cursor} {b : Char} {blank rest : List Char}
    (h : cur.rest = b :: (blank ++ rest)) (hb : isBreak b = true)
    (hrest : ∀ c ∈ rest.head?, isBreak c = false) : ∃ c next skipped behind,
      cur.lineBreak? = some (c, next) ∧ blank = skipped ++ behind ∧ next.rest = behind ++ rest := by
  unfold lineBreak?
  rw [h]
  split
  · rename_i more heq
    obtain ⟨rfl, hmore⟩ := List.cons.inj heq
    cases blank with
    | nil =>
      have hnot := hrest '\n' (by rw [← List.nil_append rest, hmore]; rfl)
      cases hnot
    | cons d blank =>
      obtain ⟨rfl, rfl⟩ := List.cons.inj hmore
      exact ⟨_, _, ['\n'], blank, rfl, rfl, rfl⟩
  · rename_i heq
    obtain ⟨rfl, rfl⟩ := List.cons.inj heq
    rw [if_pos hb]
    exact ⟨_, _, [], blank, rfl, rfl, rfl⟩
  · rename_i heq
    cases heq

end Cursor

/-! ## Blanks inside quotes -/

/-- Blanks on one line are taken as they are. -/
theorem Gap.take_spaces {limit : Int} {spaces rest : List Char} {c : Char} {more : List Char}
    (hspaces : ∀ c ∈ spaces, isSpace c = true) (hrest : rest = c :: more)
    (hc : isSpace c = false ∧ isBreak c = false) :
    ∀ {fuel : Nat} {cur : Cursor} {g : Gap}, spaces.length < fuel → cur.rest = spaces ++ rest →
      g.broke = false → Gap.take limit fuel cur g =
        some ({ g with spaces := g.spaces ++ spaces }, cur.past spaces rest) := by
  induction spaces with
  | nil =>
    intro fuel cur g hfuel hcur hbroke
    obtain ⟨fuel, rfl⟩ := Nat.exists_eq_succ_of_ne_zero (Nat.ne_of_gt hfuel)
    have hcons : cur.rest = c :: more := by rw [hcur, hrest, List.nil_append]
    rw [take, hcons]
    simp only [hc.1, Bool.false_eq_true, if_false, Cursor.lineBreak?_eq_none hcons hc.2,
      List.append_nil]
    rw [Cursor.past_nil (hcons.trans hrest.symm)]
  | cons s spaces ih =>
    intro fuel cur g hfuel hcur hbroke
    obtain ⟨fuel, rfl⟩ : ∃ n, fuel = n + 1 := ⟨fuel - 1, by omega⟩
    have hs : isSpace s = true := hspaces s List.mem_cons_self
    have hadvance : cur.advance 1 = cur.past [s] (spaces ++ rest) :=
      Cursor.advance_eq_past [s] hcur
    rw [take, hcur]
    simp only [List.cons_append, hs, if_true, hbroke, Bool.false_and, Bool.false_eq_true, if_false]
    rw [hadvance, ih (fun c hc => hspaces c (List.mem_cons_of_mem _ hc))
      (Nat.lt_of_succ_lt_succ hfuel) rfl rfl, Cursor.past_past]
    simp

/-! ## Words inside quotes -/

/-- The letters that JSON escapes characters by, with these characters. -/
def jsonEscapes : List (Char × Char) :=
  [('\x22', '\x22'), ('\x5c', '\x5c'), ('/', '/'), ('b', '\x08'), ('f', '\x0c'), ('n', '\n'),
    ('r', '\r'), ('t', '\t')]

theorem mem_jsonEscapes {letter meant : Char} (h : Json.escaped? letter = some meant) :
    (letter, meant) ∈ jsonEscapes := by
  unfold Json.escaped? at h
  repeat' split at h
  all_goals first | cases h; done | skip
  · rename_i hletter
    cases h
    rcases hletter with rfl | rfl | rfl <;> decide
  all_goals
    rename_i hletter
    cases h
    subst hletter
    decide

theorem escaped?_of_json {letter meant : Char} (h : Json.escaped? letter = some meant) :
    escaped? letter = some meant ∧ isBreak letter = false := by
  have hall : ∀ e ∈ jsonEscapes, escaped? e.1 = some e.2 ∧ isBreak e.1 = false := by decide
  exact hall _ (mem_jsonEscapes h)

theorem hexValue?_lt {c : Char} {n : Nat} (h : Text.hexValue? c = some n) : n < 16 := by
  have hle : ∀ d : Char, c ≤ d → c.toNat ≤ d.toNat := fun _ h => h
  unfold Text.hexValue? at h
  split at h
  · rename_i hc
    have h9 : c.toNat ≤ 0x39 := hle '9' hc.2
    cases h
    omega
  split at h
  · rename_i hc
    have hf : c.toNat ≤ 0x66 := hle 'f' hc.2
    cases h
    omega
  split at h
  · rename_i hc
    have hF : c.toNat ≤ 0x46 := hle 'F' hc.2
    cases h
    omega
  · cases h

theorem unit_lt (u : Json.Code) : u.unit < 65536 := by
  have hreads := u.reads
  simp only [Json.unit?, Text.hexNumber?, List.mapM_cons, List.mapM_nil, Option.map_eq_some_iff,
    Option.bind_eq_bind, Option.bind_eq_some_iff, Option.pure_def, Option.some_inj] at hreads
  obtain ⟨_, ⟨a, ha, _, ⟨b, hb, _, ⟨c, hc, _, ⟨d, hd, _, rfl, rfl⟩, rfl⟩, rfl⟩, rfl⟩, hunit⟩ := hreads
  have ha := hexValue?_lt ha
  have hb := hexValue?_lt hb
  have hc := hexValue?_lt hc
  have hd := hexValue?_lt hd
  simp only [List.foldl_cons, List.foldl_nil] at hunit
  omega

theorem coded?_code (u : Json.Code)
    (h : Text.isLowSurrogate u.unit = false ∧ Text.isHighSurrogate u.unit = false)
    (rest : List Char) : coded? 4 (u.a :: u.b :: u.c :: u.d :: rest) = some (Char.ofNat u.unit) := by
  have hlt := unit_lt u
  have hnumber : Text.hexNumber? [u.a, u.b, u.c, u.d] = some u.unit := u.reads
  have hvalid : u.unit.isValidChar := by
    simp only [Text.isLowSurrogate, Text.isHighSurrogate, Bool.and_eq_false_iff,
      decide_eq_false_iff_not] at h
    unfold Nat.isValidChar
    omega
  have htake : (u.a :: u.b :: u.c :: u.d :: rest).take 4 = [u.a, u.b, u.c, u.d] := rfl
  have hchar : Char.ofNat u.unit = Char.ofNatAux u.unit hvalid := dif_pos hvalid
  have hlength : ¬[u.a, u.b, u.c, u.d].length < 4 := Nat.lt_irrefl 4
  rw [coded?, htake, if_neg hlength, hnumber, hchar]
  exact dif_pos hvalid

theorem coded?_surrogate (u : Json.Code) (h : Text.isHighSurrogate u.unit = true) (rest : List Char) :
    coded? 4 (u.a :: u.b :: u.c :: u.d :: rest) = none := by
  have hnumber : Text.hexNumber? [u.a, u.b, u.c, u.d] = some u.unit := u.reads
  have hvalid : ¬u.unit.isValidChar := by
    simp only [Text.isHighSurrogate, Bool.and_eq_true, decide_eq_true_eq] at h
    unfold Nat.isValidChar
    omega
  have htake : (u.a :: u.b :: u.c :: u.d :: rest).take 4 = [u.a, u.b, u.c, u.d] := rfl
  have hlength : ¬[u.a, u.b, u.c, u.d].length < 4 := Nat.lt_irrefl 4
  rw [coded?, htake, if_neg hlength, hnumber]
  exact dif_neg hvalid

/-- A piece that is a blank ends a word inside quotes. -/
def isBlankPiece : Json.Piece → Bool
  | .plain c _ => isSpace c
  | _ => false

theorem quotedWord_piece {p : Json.Piece} (hp : p.Portable) (hpair : p.isPair = false)
    (hblank : isBlankPiece p = false) {fuel : Nat} {cur : Cursor} {text rest : List Char}
    (hcur : cur.rest = p.chars ++ rest) : quotedWord false (fuel + 1) cur text =
      quotedWord false fuel (cur.past p.chars rest) (text ++ [p.meant]) := by
  cases p with
  | pair high low h => cases hpair
  | plain c h =>
    have hspace : isSpace c = false := hblank
    have hbreak : isBreak c = false := hp
    have hadvance : cur.advance 1 = cur.past [c] rest := Cursor.advance_eq_past [c] hcur
    rw [quotedWord, hcur]
    simp [Json.Piece.chars, Json.Piece.meant, hspace, hbreak, h.1, h.2.1, hadvance]
  | escape letter meant h =>
    have hadvance : cur.advance 2 = cur.past ['\x5c', letter] rest :=
      Cursor.advance_eq_past ['\x5c', letter] hcur
    obtain ⟨hescaped, hletter⟩ := escaped?_of_json h
    have hnext : (cur.advance 1).rest = letter :: rest := by
      simp [Cursor.advance, hcur, Json.Piece.chars]
    have hbreak : (cur.advance 1).lineBreak? = none := Cursor.lineBreak?_eq_none hnext hletter
    rw [quotedWord, hcur]
    simp [Json.Piece.chars, Json.Piece.meant, isSpace, isBreak, hbreak, hescaped, hadvance]
  | code u h =>
    have hadvance : cur.advance (2 + 4) = cur.past u.chars rest := Cursor.advance_eq_past u.chars hcur
    have hnext : (cur.advance 1).rest = 'u' :: u.a :: u.b :: u.c :: u.d :: rest := by
      simp [Cursor.advance, hcur, Json.Piece.chars, Json.Code.chars]
    have hbreak : (cur.advance 1).lineBreak? = none :=
      Cursor.lineBreak?_eq_none hnext (by decide)
    rw [quotedWord, hcur]
    simp [Json.Piece.chars, Json.Piece.meant, Json.Code.chars, isSpace, isBreak, hbreak, escaped?,
      codeWidth?, coded?_code u h, hadvance]

/-- The first escape of a pair of surrogates is refused. -/
theorem quotedWord_pair {p : Json.Piece} (hpair : p.isPair = true) {fuel : Nat} {cur : Cursor}
    {text rest : List Char} (hcur : cur.rest = p.chars ++ rest) :
    quotedWord false (fuel + 1) cur text = none := by
  cases p with
  | pair high low h =>
    have hrest : cur.rest = '\x5c' :: 'u' :: high.a :: high.b :: high.c :: high.d ::
        (low.chars ++ rest) := by
      rw [hcur, Json.Piece.chars, List.append_assoc]
      rfl
    have hnext : (cur.advance 1).rest = 'u' :: high.a :: high.b :: high.c :: high.d ::
        (low.chars ++ rest) := by
      rw [Cursor.advance_one hrest, Cursor.rest_past]
    have hbreak : (cur.advance 1).lineBreak? = none :=
      Cursor.lineBreak?_eq_none hnext (by decide)
    rw [quotedWord, hrest]
    simp [isSpace, isBreak, hbreak, escaped?, codeWidth?, coded?_surrogate high h.1]
  | _ => cases hpair

theorem quotedWord_pieces {ps : List Json.Piece} (hps : ∀ p ∈ ps, p.Portable)
    (hword : ∀ p ∈ ps, isBlankPiece p = false) {c : Char} (hc : isSpace c = true ∨ c = '\x22')
    {more : List Char} : ∀ {fuel : Nat} {cur : Cursor} {text : List Char}, ps.length < fuel →
      cur.rest = ps.flatMap Json.Piece.chars ++ c :: more → quotedWord false fuel cur text =
        if ps.any Json.Piece.isPair then none
        else some (text ++ ps.map Json.Piece.meant, false,
          cur.past (ps.flatMap Json.Piece.chars) (c :: more)) := by
  induction ps with
  | nil =>
    intro fuel cur text hfuel hcur
    obtain ⟨fuel, rfl⟩ := Nat.exists_eq_succ_of_ne_zero (Nat.ne_of_gt hfuel)
    rw [List.flatMap_nil, List.nil_append] at hcur
    rw [quotedWord, hcur, List.flatMap_nil, Cursor.past_nil hcur]
    rcases hc with hc | rfl
    · simp [hc]
    · simp [isSpace, isBreak]
  | cons p ps ih =>
    intro fuel cur text hfuel hcur
    obtain ⟨fuel, rfl⟩ : ∃ n, fuel = n + 1 := ⟨fuel - 1, by omega⟩
    rw [List.flatMap_cons, List.append_assoc] at hcur
    cases hpair : p.isPair with
    | true => rw [quotedWord_pair hpair hcur, List.any_cons, hpair, Bool.true_or, if_pos rfl]
    | false =>
      rw [quotedWord_piece (hps p List.mem_cons_self) hpair (hword p List.mem_cons_self) hcur,
        ih (fun q hq => hps q (List.mem_cons_of_mem _ hq))
          (fun q hq => hword q (List.mem_cons_of_mem _ hq)) (Nat.lt_of_succ_lt_succ hfuel) rfl,
        Cursor.past_past]
      simp [hpair]

/-! ## Texts in quotes -/

/-- Blanks mean themselves. -/
theorem flatMap_chars_of_blank {ps : List Json.Piece} (h : ∀ p ∈ ps, isBlankPiece p = true) :
    ps.flatMap Json.Piece.chars = ps.map Json.Piece.meant ∧
      ∀ c ∈ ps.flatMap Json.Piece.chars, isSpace c = true := by
  induction ps with
  | nil => simp
  | cons p ps ih =>
    obtain ⟨ihmap, ihspace⟩ := ih fun q hq => h q (List.mem_cons_of_mem _ hq)
    have hp := h p List.mem_cons_self
    cases p with
    | plain c hc =>
      have hspace : isSpace c = true := hp
      refine ⟨by simp [ihmap, Json.Piece.chars, Json.Piece.meant], ?_⟩
      intro d hd
      rw [List.flatMap_cons, List.mem_append] at hd
      rcases hd with hd | hd
      · rw [List.mem_singleton.1 hd]
        exact hspace
      · exact ihspace d hd
    | _ => cases hp

/-- After the blanks comes the quote or a character of a word. -/
theorem exists_head_spelled {ps : List Json.Piece} (hps : ∀ p ∈ ps, p.Portable)
    (hhead : ∀ p ∈ ps.head?, isBlankPiece p = false) (rest : List Char) :
    ∃ c more, Json.spelled ps ++ rest = c :: more ∧ isSpace c = false ∧ isBreak c = false := by
  cases ps with
  | nil => exact ⟨'\x22', rest, rfl, by decide, by decide⟩
  | cons p ps =>
    have hp := hps p List.mem_cons_self
    have hblank := hhead p rfl
    cases p with
    | plain c h => exact ⟨c, _, rfl, hblank, hp⟩
    | escape letter meant h => exact ⟨'\x5c', _, rfl, by decide, by decide⟩
    | code u h => exact ⟨'\x5c', _, rfl, by decide, by decide⟩
    | pair high low h => exact ⟨'\x5c', _, rfl, by decide, by decide⟩

/-- The front of a list with a property, up to the first member without it. -/
theorem exists_front {α : Type} (f : α → Bool) (xs : List α) : ∃ front back, xs = front ++ back ∧
    (∀ x ∈ front, f x = true) ∧ ∀ x ∈ back.head?, f x = false := by
  refine ⟨xs.takeWhile f, xs.dropWhile f, List.takeWhile_append_dropWhile.symm,
    fun x hx => List.mem_takeWhile_imp hx, fun x hx => ?_⟩
  have hnot := List.head?_dropWhile_not f xs
  rwa [Option.mem_def.1 hx] at hnot

theorem length_le_flatMap_chars (ps : List Json.Piece) :
    ps.length ≤ (ps.flatMap Json.Piece.chars).length := by
  induction ps with
  | nil => exact Nat.le_refl 0
  | cons p ps ih =>
    have hp : 0 < p.chars.length := by cases p <;> exact Nat.succ_pos _
    rw [List.flatMap_cons, List.length_append, List.length_cons]
    omega

theorem any_isPair_of_blank {ps : List Json.Piece} (h : ∀ p ∈ ps, isBlankPiece p = true) :
    ps.any Json.Piece.isPair = false := by
  rw [List.any_eq_false]
  intro p hp
  have hblank := h p hp
  cases p with
  | plain c h => exact Bool.false_ne_true
  | _ => cases hblank

/-- A round of the reader takes a word. The quote ends the text, and after blanks it goes on. -/
theorem quoted_word {ws : List Json.Piece} (hws : ∀ p ∈ ws, p.Portable)
    (hword : ∀ p ∈ ws, isBlankPiece p = false) {c : Char} (hc : isSpace c = true ∨ c = '\x22')
    {fuel : Nat} {cur : Cursor} (hcolumn : 0 < cur.column) {text more : List Char}
    (hcur : cur.rest = ws.flatMap Json.Piece.chars ++ c :: more) :
    quoted false (fuel + 1) cur text =
      if ws.any Json.Piece.isPair then none
      else if c = '\x22' then
        some (text ++ ws.map Json.Piece.meant, cur.past (Json.spelled ws) more)
      else
        match Gap.take 0 (more.length + 2)
            (cur.past (ws.flatMap Json.Piece.chars) (c :: more)) Gap.empty with
        | none => none
        | some (gap, next) =>
          quoted false fuel next (text ++ ws.map Json.Piece.meant ++ gap.text) := by
  have hmarker : cur.atMarker = false := Cursor.atMarker_eq_false hcolumn
  have hne : cur.rest ≠ [] := by simp [hcur]
  have hlength : ws.length < cur.rest.length + 1 := by
    have hle := length_le_flatMap_chars ws
    rw [hcur, List.length_append]
    omega
  rw [quoted, quotedWord_pieces hws hword hc hlength hcur]
  simp only [hmarker, hne, Bool.false_or, decide_false, Bool.false_eq_true, if_false]
  cases hpair : ws.any Json.Piece.isPair with
  | true => rfl
  | false =>
    simp only [Bool.false_eq_true, if_false, Cursor.rest_past, List.head?_cons, Option.some_inj,
      List.length_cons]
    by_cases hquote : c = '\x22'
    · rw [if_pos hquote, if_pos hquote, Cursor.advance_one rfl, Cursor.past_past, hquote]
      rfl
    · rw [if_neg hquote, if_neg hquote]
      rfl

/-- The blanks after a word are kept. -/
theorem quoted_blanks {ws bs : List Json.Piece} (hws : ∀ p ∈ ws, p.Portable)
    (hword : ∀ p ∈ ws, isBlankPiece p = false) (hbs : bs ≠ [])
    (hblank : ∀ p ∈ bs, isBlankPiece p = true) {c : Char}
    (hc : isSpace c = false ∧ isBreak c = false) {fuel : Nat} {cur : Cursor}
    (hcolumn : 0 < cur.column) {text more : List Char}
    (hcur : cur.rest = ws.flatMap Json.Piece.chars ++
      (bs.flatMap Json.Piece.chars ++ c :: more)) :
    quoted false (fuel + 1) cur text =
      if ws.any Json.Piece.isPair then none
      else quoted false fuel (cur.past ((ws ++ bs).flatMap Json.Piece.chars) (c :: more))
        (text ++ (ws ++ bs).map Json.Piece.meant) := by
  obtain ⟨hmeant, hspaces⟩ := flatMap_chars_of_blank hblank
  have hcount := length_le_flatMap_chars bs
  rw [List.flatMap_append, List.map_append]
  cases hs : bs.flatMap Json.Piece.chars with
  | nil =>
    have hpos := List.length_pos_iff.2 hbs
    rw [hs, List.length_nil] at hcount
    omega
  | cons s spaces =>
    rw [hs] at hspaces
    rw [hs, List.cons_append] at hcur
    have hspace : isSpace s = true := hspaces s List.mem_cons_self
    have hquote : s ≠ '\x22' := by
      rintro rfl
      cases hspace
    rw [quoted_word hws hword (.inl hspace) hcolumn hcur, if_neg hquote,
      Gap.take_spaces hspaces rfl hc _ rfl rfl, ← hmeant, hs, Cursor.past_past]
    · simp only [Gap.text, Gap.empty, List.nil_append, List.append_assoc, Bool.not_false, if_true]
    · simp only [List.length_cons, List.length_append]
      omega

/-- A text with a pair of surrogates is refused, and another one read for what it means. -/
theorem quoted_spelled {ps : List Json.Piece} (hps : ∀ p ∈ ps, p.Portable) {fuel : Nat}
    (hfuel : ps.length < fuel) {cur : Cursor} (hcolumn : 0 < cur.column) {text rest : List Char}
    (hcur : cur.rest = Json.spelled ps ++ rest) : quoted false fuel cur text =
      if ps.any Json.Piece.isPair then none
      else some (text ++ ps.map Json.Piece.meant, cur.past (Json.spelled ps) rest) := by
  induction fuel generalizing ps cur text with
  | zero => exact absurd hfuel (Nat.not_lt_zero _)
  | succ fuel ih =>
    obtain ⟨ws, r, rfl, hword, hr⟩ := exists_front (fun p => !isBlankPiece p) ps
    obtain ⟨bs, rs, rfl, hblank, hrs⟩ := exists_front isBlankPiece r
    have hword' : ∀ p ∈ ws, isBlankPiece p = false := fun p hp => by simpa using hword p hp
    have hws : ∀ p ∈ ws, p.Portable := fun p hp => hps p (by simp [hp])
    have hps' : ∀ p ∈ rs, p.Portable := fun p hp => hps p (by simp [hp])
    by_cases hbs : bs = []
    · -- Neither a blank nor a word comes, so the text ends.
      subst hbs
      obtain rfl : rs = [] := by
        cases rs with
        | nil => rfl
        | cons p rs =>
          have hblank := hr p rfl
          simp [hrs p rfl] at hblank
      have hquote : cur.rest = ws.flatMap Json.Piece.chars ++ '\x22' :: rest := by
        rw [hcur]
        simp [Json.spelled]
      rw [quoted_word hws hword' (.inr rfl) hcolumn hquote, if_pos rfl, List.append_nil,
        List.append_nil]
    · obtain ⟨c, more, hnext, hc⟩ := exists_head_spelled hps' hrs rest
      have hsplit : cur.rest = ws.flatMap Json.Piece.chars ++
          (bs.flatMap Json.Piece.chars ++ c :: more) := by
        rw [hcur, ← hnext]
        simp [Json.spelled]
      have hshort : rs.length < fuel := by
        have hpos := List.length_pos_iff.2 hbs
        simp only [List.length_append] at hfuel
        omega
      rw [quoted_blanks hws hword' hbs hblank hc hcolumn hsplit,
        ih hps' hshort (by simp only [Cursor.column_past]; omega) hnext.symm, Cursor.past_past,
        List.any_append, List.any_append, any_isPair_of_blank hblank, Bool.false_or]
      cases ws.any Json.Piece.isPair with
      | true => rfl
      | false => simp [Json.spelled]

/-! ## Words without quotes -/

theorem isBreak_of_json_isSpace {c : Char} (h : Json.isSpace c = true) (hc : isSpace c = false) :
    isBreak c = true := by
  simp only [Json.isSpace, Bool.or_eq_true, decide_eq_true_eq] at h
  rcases h with ((rfl | rfl) | rfl) | rfl
  · cases hc
  · cases hc
  · rfl
  · rfl

/-- Blanks and line breaks are taken up to the next word. -/
theorem Gap.take_blank {limit : Int} (hlimit : limit ≤ 0) {rest : List Char}
    (hrest : ∀ c ∈ rest.head?, isSpace c = false ∧ isBreak c = false) :
    ∀ {fuel : Nat} {blank : List Char} {cur : Cursor} {g : Gap},
      (∀ c ∈ blank, Json.isSpace c = true) → blank.length < fuel → cur.rest = blank ++ rest →
        ∃ g' cur', Gap.take limit fuel cur g = some (g', cur') ∧ cur'.rest = rest := by
  intro fuel
  induction fuel with
  | zero => exact fun _ hfuel => absurd hfuel (Nat.not_lt_zero _)
  | succ fuel ih =>
    intro blank cur g hblank hfuel hcur
    cases blank with
    | nil =>
      refine ⟨g, cur, ?_, hcur⟩
      rw [List.nil_append] at hcur
      cases rest with
      | nil => rw [take, hcur]
      | cons c more =>
        obtain ⟨hspace, hbreak⟩ := hrest c rfl
        rw [take, hcur]
        simp only [hspace, Bool.false_eq_true, if_false, Cursor.lineBreak?_eq_none hcur hbreak]
    | cons b blank =>
      have hblank' : ∀ c ∈ blank, Json.isSpace c = true :=
        fun c hc => hblank c (List.mem_cons_of_mem _ hc)
      have hlength : blank.length < fuel := Nat.lt_of_succ_lt_succ hfuel
      have hlimit' : ¬((cur.column : Int) < limit) := by omega
      rw [take, hcur]
      cases hspace : isSpace b with
      | true =>
        simp only [List.cons_append, hspace, if_true, hlimit', decide_false, Bool.and_false,
          Bool.false_eq_true, if_false]
        exact ih hblank' hlength (by rw [Cursor.advance_one hcur]; rfl)
      | false =>
        have hbreak : isBreak b = true := isBreak_of_json_isSpace (hblank b List.mem_cons_self) hspace
        obtain ⟨c, next, skipped, behind, hnext, rfl, hbehind⟩ :=
          Cursor.exists_lineBreak? hcur hbreak fun c hc => (hrest c hc).2
        simp only [List.cons_append, hspace, Bool.false_eq_true, if_false, hnext]
        refine ih (fun c hc => hblank' c (List.mem_append_right _ hc)) ?_ hbehind
        rw [List.length_append] at hlength
        omega

def isWordChar (c : Char) : Bool :=
  !isSpace c && !isBreak c && c ≠ ':' && !isFlowIndicator c

theorem plainWord_append {flow : Bool} {word rest : List Char}
    (hword : ∀ c ∈ word, isWordChar c = true)
    (hrest : ∀ c ∈ rest.head?, isSpace c = true ∨ isBreak c = true ∨
      flow = true ∧ isFlowIndicator c = true) :
    plainWord flow (word ++ rest) = some word := by
  induction word with
  | nil =>
    cases rest with
    | nil => rfl
    | cons c rest =>
      rw [List.nil_append, plainWord]
      rcases hrest c rfl with hc | hc | ⟨rfl, hc⟩
      · simp [hc]
      · simp [hc]
      · have hcolon : c ≠ ':' := by
          rintro rfl
          cases hc
        simp [hcolon, hc]
  | cons c word ih =>
    have hc := hword c List.mem_cons_self
    simp only [isWordChar, Bool.and_eq_true, Bool.not_eq_true', decide_eq_true_eq] at hc
    obtain ⟨⟨⟨hspace, hbreak⟩, hcolon⟩, hflow⟩ := hc
    rw [List.cons_append, plainWord, ih fun d hd => hword d (List.mem_cons_of_mem _ hd)]
    simp [hspace, hbreak, hcolon, hflow]

/-- What follows a word and the blanks after it: a comma or a closing bracket inside brackets, and
nothing outside. -/
def EndsWord (flow : Bool) (rest : List Char) : Prop :=
  rest = [] ∨ flow = true ∧ ∃ c more, rest = c :: more ∧ (c = ',' ∨ c = ']' ∨ c = '\x7d')

theorem EndsWord.head {flow : Bool} {rest : List Char} (h : EndsWord flow rest) :
    ∀ c ∈ rest.head?, flow = true ∧ isFlowIndicator c = true ∧ isSpace c = false ∧
      isBreak c = false ∧ c ≠ '-' ∧ c ≠ '.' ∧ c ≠ '#' := by
  rcases h with rfl | ⟨rfl, c, more, rfl, hc⟩
  · simp
  · rintro _ ⟨⟩
    rcases hc with rfl | rfl | rfl <;> decide

/-- The reader of plain scalars stops where a word cannot start. -/
theorem plain_of_endsWord {flow : Bool} {rest : List Char} (h : EndsWord flow rest) {indent : Int}
    {fuel : Nat} {cur : Cursor} (hcur : cur.rest = rest) (text : List Char) (gap : Gap) :
    plain flow indent (fuel + 1) cur text gap = some (text, gap.broke, cur) := by
  have hmarker : cur.atMarker = false := by
    cases rest with
    | nil => simp [Cursor.atMarker, hcur]
    | cons c more =>
      obtain ⟨-, -, -, -, hhyphen, hdot, -⟩ := h.head c rfl
      exact Cursor.atMarker_of_head hcur ⟨.inl hhyphen, hdot⟩
  have hcomment : cur.rest.head? ≠ some '#' := fun hc =>
    (h.head '#' (hcur ▸ hc)).2.2.2.2.2.2 rfl
  have hword : plainWord flow cur.rest = some [] := by
    have happend := @plainWord_append flow [] cur.rest (by simp) fun c hc => by
      obtain ⟨hflow, hc, -⟩ := h.head c (hcur ▸ hc)
      exact .inr (.inr ⟨hflow, hc⟩)
    exact happend
  rw [plain]
  simp [hmarker, hcomment, hword]

theorem isFlowIndicator_of_blank {c : Char} (h : Json.isSpace c = true) :
    isFlowIndicator c = false := by
  simp only [Json.isSpace, Bool.or_eq_true, decide_eq_true_eq] at h
  rcases h with ((rfl | rfl) | rfl) | rfl <;> decide

/-- A word ends before a blank and before what may follow it. -/
theorem head_of_endsWord {flow : Bool} {after rest : List Char}
    (hafter : ∀ c ∈ after, Json.isSpace c = true) (hrest : EndsWord flow rest) :
    ∀ c ∈ (after ++ rest).head?, isSpace c = true ∨ isBreak c = true ∨
      flow = true ∧ isFlowIndicator c = true := by
  intro c hc
  cases after with
  | nil => exact .inr (.inr ⟨(hrest.head c hc).1, (hrest.head c hc).2.1⟩)
  | cons a after =>
    obtain rfl : a = c := Option.some.inj hc
    cases hspace : isSpace a with
    | true => exact .inl rfl
    | false => exact .inr (.inl (isBreak_of_json_isSpace (hafter a List.mem_cons_self) hspace))

theorem EndsWord.stops {flow : Bool} {rest : List Char} (h : EndsWord flow rest) :
    rest = [] ∨ endsWord rest = false := by
  cases rest with
  | nil => exact .inl rfl
  | cons c more =>
    obtain ⟨-, -, hspace, hbreak, -⟩ := h.head c rfl
    exact .inr (by simp [endsWord, hspace, hbreak])

/-- A word without quotes is read for itself, and the blanks after it are taken. -/
theorem plain_word {flow : Bool} {indent : Int} (hindent : indent ≤ 0) {word after rest : List Char}
    (hword : ∀ c ∈ word, isWordChar c = true) (hne : word ≠ []) (hcomment : word.head? ≠ some '#')
    (hafter : ∀ c ∈ after, Json.isSpace c = true) (hrest : EndsWord flow rest) {fuel : Nat}
    {cur : Cursor} (hcur : cur.rest = word ++ (after ++ rest)) (hmarker : cur.atMarker = false) :
    ∃ broke next, plain flow indent (fuel + 2) cur [] Gap.empty = some (word, broke, next) ∧
      next.rest = rest := by
  obtain ⟨w, ws, rfl⟩ := List.exists_cons_of_ne_nil hne
  have hhead : cur.rest.head? ≠ some '#' := by rw [hcur]; exact hcomment
  have hends := head_of_endsWord hafter hrest
  have htake : plainWord flow cur.rest = some (w :: ws) := by
    rw [hcur]
    exact plainWord_append hword hends
  have hadvance : cur.advance (ws.length + 1) = cur.past (w :: ws) (after ++ rest) :=
    Cursor.advance_eq_past (w :: ws) hcur
  have htext : [] ++ Gap.empty.text ++ w :: ws = w :: ws := rfl
  rw [plain]
  simp only [hmarker, hhead, decide_false, Bool.or_self, Bool.false_eq_true, if_false, htake,
    hadvance, Cursor.rest_past, htext]
  cases after with
  | nil =>
    -- The word ends right before what follows it.
    have hstop : (decide ([] ++ rest = []) || !endsWord ([] ++ rest)) = true := by
      rcases hrest.stops with hnil | hstops
      · simp [hnil]
      · simp [hstops]
    rw [if_pos hstop]
    exact ⟨_, _, rfl, rfl⟩
  | cons a after =>
    have hgo : ¬(decide (a :: after ++ rest = []) || !endsWord (a :: after ++ rest)) = true := by
      have ha := hends a rfl
      rw [isFlowIndicator_of_blank (hafter a List.mem_cons_self)] at ha
      have hend : endsWord (a :: after ++ rest) = true := by simpa [endsWord] using ha
      rw [hend]
      simp
    have hlength : (a :: after).length < (a :: after ++ rest).length + 1 := by
      rw [List.length_append]
      omega
    obtain ⟨gap, next, hgap, hnext⟩ := Gap.take_blank hindent
      (fun c hc => ⟨(hrest.head c hc).2.2.1, (hrest.head c hc).2.2.2.1⟩) hafter hlength
      (Cursor.rest_past cur (w :: ws) (a :: after ++ rest)) (g := Gap.empty)
    have hcolumn : ¬(next.column : Int) < indent := by omega
    rw [if_neg hgo, hgap]
    simp only [hcolumn, decide_false, Bool.and_false, Bool.false_eq_true, if_false]
    exact ⟨_, _, plain_of_endsWord hrest hnext _ _, hnext⟩

end Yaml

end Rollout
