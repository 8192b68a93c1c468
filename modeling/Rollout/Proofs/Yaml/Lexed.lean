import Rollout.Proofs.Yaml.Scalar

/-! # Tokens of JSON texts

From a portable JSON text the lexer makes the tokens of its tree, unless it meets a pair of surrogates.
It opens no block collection on the way, so all that counts in its state is how many brackets are open,
the tokens so far, what is ahead, and whether a key may start. -/
namespace Rollout
set_option autoImplicit false

namespace Yaml

namespace Lexer

/-! ## Blanks -/

/-- No blank, comment or mark: a token starts here. -/
def startsToken (c : Char) : Bool := !isSpace c && !isBreak c && c ≠ '#' && c ≠ '\ufeff'

theorem isBreak_of_startsToken {c : Char} (h : startsToken c = true) : isBreak c = false := by
  simp only [startsToken, Bool.and_eq_true, Bool.not_eq_true'] at h
  exact h.1.1.2

theorem skipWhile_of_head {cur : Cursor} {p : Char → Bool}
    (h : ∀ c ∈ cur.rest.head?, p c = false) : cur.skipWhile p = cur := by
  have hnone : cur.rest.takeWhile p = [] := by
    cases hrest : cur.rest with
    | nil => rfl
    | cons c rest => simp [h c (by rw [hrest]; rfl)]
  rw [Cursor.skipWhile, hnone, Cursor.advance_eq_past [] rfl, Cursor.past_nil rfl]

section

variable {lx : Lexer} {fuel : Nat}

theorem toNextToken_token (h : ∀ c ∈ lx.cur.rest.head?, startsToken c = true) :
    lx.toNextToken (fuel + 1) = some lx := by
  have hbreak : lx.cur.lineBreak? = none := by
    cases hrest : lx.cur.rest with
    | nil => simp [Cursor.lineBreak?, hrest]
    | cons c rest =>
      exact Cursor.lineBreak?_eq_none hrest (isBreak_of_startsToken (h c (by rw [hrest]; rfl)))
  have hmark : lx.cur.rest.head? ≠ some '\ufeff' := fun hc => absurd (h _ hc) (by decide)
  have hcomment : lx.cur.rest.head? ≠ some '#' := fun hc => absurd (h _ hc) (by decide)
  rw [toNextToken]
  simp only [hmark, decide_false, Bool.and_false, Bool.false_eq_true, if_false]
  rw [skipWhile_of_head]
  · simp only [hcomment, if_false, hbreak]
  · intro c hc
    have hstarts := h c hc
    simp only [startsToken, isSpace, Bool.and_eq_true, Bool.not_eq_true',
      Bool.or_eq_false_iff] at hstarts
    simp [hstarts.1.1.1]

/-- A blank is passed where it counts as one: a tab does not, outside brackets, where a key may
start. -/
theorem toNextToken_space {c : Char} {rest : List Char} (hrest : lx.cur.rest = c :: rest)
    (hc : c = ' ' ∨ c = '\t' ∧ (lx.flow ≠ 0 ∨ lx.keyAllowed = false)) :
    lx.toNextToken (fuel + 1) =
      { lx with cur := lx.cur.past [c] rest }.toNextToken (fuel + 1) := by
  have hmark : c ≠ '\ufeff' := by
    rintro rfl
    rcases hc with hc | ⟨hc, -⟩ <;> cases hc
  have hpass : ∀ p : Char → Bool, p c = true →
      lx.cur.skipWhile p = (lx.cur.past [c] rest).skipWhile p := by
    intro p hp
    simp only [Cursor.skipWhile, Cursor.advance, Cursor.past, hrest, List.takeWhile_cons, hp, if_true,
      List.length_cons, List.length_nil, List.drop_succ_cons, List.take_succ_cons, Text.byteCount,
      List.foldr_cons, List.foldr_nil]
    congr 1 <;> omega
  rw [toNextToken, toNextToken]
  simp only [hrest, List.head?_cons, Option.some_inj, hmark, decide_false, Bool.and_false,
    Bool.false_eq_true, if_false, Cursor.column_past, List.length_singleton, Nat.add_one_ne_zero,
    Bool.false_and]
  rw [hpass]
  rcases hc with rfl | ⟨rfl, hc⟩
  · rfl
  · rcases hc with hc | hc <;> simp [hc]

theorem toNextToken_break {c : Char} {next : Cursor} (h : lx.cur.lineBreak? = some (c, next)) :
    lx.toNextToken (fuel + 1) =
      { lx with cur := next, keyAllowed := lx.keyAllowed || lx.flow = 0 }.toNextToken fuel := by
  obtain ⟨b, rest, hrest, hb⟩ : ∃ b rest, lx.cur.rest = b :: rest ∧ isBreak b = true := by
    unfold Cursor.lineBreak? at h
    split at h
    · exact ⟨_, _, ‹_›, rfl⟩
    · split at h
      · exact ⟨_, _, ‹_›, ‹_›⟩
      · cases h
    · cases h
  have hne : ∀ d, isBreak d = false → b ≠ d := by
    rintro d hd rfl
    rw [hb] at hd
    cases hd
  have hmark : b ≠ '\ufeff' := hne _ (by decide)
  have hcomment : b ≠ '#' := hne _ (by decide)
  have hspace : b ≠ ' ' := hne _ (by decide)
  have htab : b ≠ '\t' := hne _ (by decide)
  rw [toNextToken]
  simp only [hrest, List.head?_cons, Option.some_inj, hmark, decide_false, Bool.and_false,
    Bool.false_eq_true, if_false]
  rw [skipWhile_of_head (by rintro _ h; rw [hrest] at h; cases h; simp [hspace, htab])]
  simp only [hrest, List.head?_cons, Option.some_inj, hcomment, if_false, h]

end

/-- The blanks count as blanks from this state: within brackets all of them do, and outside a tab does
not where a key may start. If none may start here, one may on the next line. -/
def Passes (lx : Lexer) (blank : List Char) : Prop :=
  lx.flow ≠ 0 ∨ '\t' ∉ blank ∨ lx.keyAllowed = false ∧ '\t' ∉ blank.dropWhile fun c => !isBreak c

section

variable {lx : Lexer} {c : Char} {blank : List Char}

theorem Passes.head (h : lx.Passes (c :: blank)) (hc : isSpace c = true) :
    c = ' ' ∨ c = '\t' ∧ (lx.flow ≠ 0 ∨ lx.keyAllowed = false) := by
  simp only [isSpace, Bool.or_eq_true, decide_eq_true_eq] at hc
  refine hc.imp_right fun htab => ⟨htab, ?_⟩
  rcases h with hflow | hnone | ⟨hkey, -⟩
  · exact .inl hflow
  · exact absurd (htab ▸ List.mem_cons_self) hnone
  · exact .inr hkey

theorem Passes.tail (h : lx.Passes (c :: blank)) (hc : isBreak c = false) : lx.Passes blank := by
  refine h.imp_right fun h => h.imp (fun hnone hm => hnone (List.mem_cons_of_mem _ hm)) ?_
  rintro ⟨hkey, hnone⟩
  rw [List.dropWhile_cons_of_pos (by simp [hc])] at hnone
  exact ⟨hkey, hnone⟩

/-- After a line break it no longer matters where a key may start. -/
theorem Passes.next (h : lx.Passes (c :: blank)) (hc : isBreak c = true) :
    lx.flow ≠ 0 ∨ '\t' ∉ blank := by
  rcases h with hflow | hnone | ⟨-, hnone⟩
  · exact .inl hflow
  · exact .inr fun hm => hnone (List.mem_cons_of_mem _ hm)
  · rw [List.dropWhile_cons_of_neg (by simp [hc])] at hnone
    exact .inr fun hm => hnone (List.mem_cons_of_mem _ hm)

end

/-- What counts as a blank is passed, and a line break lets a key start. -/
theorem toNextToken_blank {rest : List Char} (hrest : ∀ c ∈ rest.head?, startsToken c = true) :
    ∀ {fuel : Nat} {blank : List Char} {lx : Lexer}, (∀ c ∈ blank, Json.isSpace c = true) →
      blank.length < fuel → lx.cur.rest = blank ++ rest → lx.Passes blank →
      ∃ cur allowed, lx.toNextToken fuel = some { lx with cur := cur, keyAllowed := allowed } ∧
        cur.rest = rest ∧ (lx.keyAllowed = true → allowed = true) ∧
        ((∀ c ∈ blank, isBreak c = false) → cur = lx.cur.past blank rest) := by
  intro fuel
  induction fuel with
  | zero => exact fun _ hfuel => absurd hfuel (Nat.not_lt_zero _)
  | succ fuel ih =>
    intro blank
    induction blank with
    | nil =>
      intro lx _ _ hcur _
      refine ⟨lx.cur, lx.keyAllowed, toNextToken_token (by rwa [hcur]), hcur, id, fun _ => ?_⟩
      exact (Cursor.past_nil hcur).symm
    | cons b blank ihblank =>
      intro lx hblank hfuel hcur hpasses
      have hblank' : ∀ c ∈ blank, Json.isSpace c = true :=
        fun c hc => hblank c (List.mem_cons_of_mem _ hc)
      cases hspace : isSpace b with
      | true =>
        have hbreak : isBreak b = false := by
          simp only [isSpace, Bool.or_eq_true, decide_eq_true_eq] at hspace
          rcases hspace with rfl | rfl <;> rfl
        rw [toNextToken_space hcur (hpasses.head hspace)]
        obtain ⟨cur, allowed, hnext, hcur', hallowed, hpast⟩ := @ihblank
          { lx with cur := lx.cur.past [b] (blank ++ rest) } hblank' (Nat.lt_of_succ_lt hfuel) rfl
          (hpasses.tail hbreak)
        refine ⟨cur, allowed, hnext, hcur', hallowed, fun hnone => ?_⟩
        rw [hpast fun c hc => hnone c (List.mem_cons_of_mem _ hc)]
        simp [Cursor.past_past]
      | false =>
        have hbreak : isBreak b = true := isBreak_of_json_isSpace (hblank b List.mem_cons_self) hspace
        obtain ⟨c, next, skipped, behind, hnext, rfl, hbehind⟩ :=
          Cursor.exists_lineBreak? hcur hbreak fun c hc => isBreak_of_startsToken (hrest c hc)
        have hlength : behind.length < fuel := by
          rw [List.length_cons, List.length_append] at hfuel
          omega
        have hpasses' : lx.flow ≠ 0 ∨ '\t' ∉ behind :=
          (hpasses.next hbreak).imp_right fun hnone hm => hnone (List.mem_append_right _ hm)
        rw [toNextToken_break hnext]
        obtain ⟨cur, allowed, hnext', hcur', hallowed, -⟩ := @ih behind
          { lx with cur := next, keyAllowed := lx.keyAllowed || lx.flow = 0 }
          (fun c hc => hblank' c (List.mem_append_right _ hc)) hlength hbehind
          (hpasses'.imp_right .inl)
        refine ⟨cur, allowed, hnext', hcur', fun hkey => hallowed (by simp [hkey]), fun hnone => ?_⟩
        have hnot := hnone b List.mem_cons_self
        rw [hbreak] at hnot
        cases hnot

/-! ## States -/

/-- What counts of a state outside block collections: the open brackets, the tokens so far and what is
ahead. No key has to start anywhere. -/
structure At (flow : Nat) (tokens : List Token) (rest : List Char) (lx : Lexer) : Prop where
  flow : lx.flow = flow
  tokens : lx.tokens.toList = tokens
  rest : lx.cur.rest = rest
  indent : lx.indent = -1
  outer : lx.outer = []
  keys : ∀ k, some k ∈ lx.keys → k.required = false

/-- What is left of the text is lexed from a later state. -/
def Reaches (lx lx' : Lexer) : Prop := ∀ fuel, lx.cur.rest.length < fuel →
  ∃ fuel', lx'.cur.rest.length < fuel' ∧ lx.run fuel = lx'.run fuel'

/-- Lexing goes on from a state with a property. -/
def Leads (lx : Lexer) (P : Lexer → Prop) : Prop := ∃ lx', lx.Reaches lx' ∧ P lx'

theorem Reaches.trans {lx lx' lx'' : Lexer} (h : lx.Reaches lx') (h' : lx'.Reaches lx'') :
    lx.Reaches lx'' := by
  intro fuel hfuel
  obtain ⟨fuel', hfuel', heq⟩ := h fuel hfuel
  obtain ⟨fuel'', hfuel'', heq'⟩ := h' fuel' hfuel'
  exact ⟨fuel'', hfuel'', heq.trans heq'⟩

theorem Leads.trans {lx : Lexer} {P Q : Lexer → Prop} (h : lx.Leads P)
    (hnext : ∀ lx', P lx' → lx'.Leads Q) : lx.Leads Q := by
  obtain ⟨lx', hreaches, hp⟩ := h
  obtain ⟨lx'', hreaches', hq⟩ := hnext lx' hp
  exact ⟨lx'', hreaches.trans hreaches', hq⟩

theorem Leads.imp {lx : Lexer} {P Q : Lexer → Prop} (h : lx.Leads P) (hpq : ∀ lx', P lx' → Q lx') :
    lx.Leads Q := by
  obtain ⟨lx', hreaches, hp⟩ := h
  exact ⟨lx', hreaches, hpq lx' hp⟩

theorem leads_of {lx : Lexer} {P : Lexer → Prop} (h : P lx) : lx.Leads P :=
  ⟨lx, fun fuel hfuel => ⟨fuel, hfuel, rfl⟩, h⟩

/-- What is left of the text is refused if the flag says so, and otherwise lexing goes on from a state
with a property. -/
def Ends : Bool → Lexer → (Lexer → Prop) → Prop
  | true, lx, _ => ∀ fuel, lx.cur.rest.length < fuel → lx.run fuel = none
  | false, lx, P => lx.Leads P

theorem Ends.imp {refused : Bool} {lx : Lexer} {P Q : Lexer → Prop} (h : Ends refused lx P)
    (hpq : ∀ lx', P lx' → Q lx') : Ends refused lx Q := by
  cases refused with
  | true => exact h
  | false => exact Leads.imp h hpq

theorem Ends.leads {refused : Bool} {lx : Lexer} {P Q : Lexer → Prop} (h : Ends refused lx P)
    (hnext : ∀ lx', P lx' → lx'.Leads Q) : Ends refused lx Q := by
  cases refused with
  | true => exact h
  | false => exact Leads.trans h hnext

theorem Leads.ends {refused : Bool} {lx : Lexer} {P Q : Lexer → Prop} (h : lx.Leads P)
    (hnext : ∀ lx', P lx' → Ends refused lx' Q) : Ends refused lx Q := by
  cases refused with
  | false => exact h.trans hnext
  | true =>
    obtain ⟨lx', hreaches, hp⟩ := h
    intro fuel hfuel
    obtain ⟨fuel', hfuel', heq⟩ := hreaches fuel hfuel
    rw [heq, hnext lx' hp fuel' hfuel']

/-- A text is refused for what comes first or for what comes next. -/
theorem Ends.trans {first next : Bool} {lx : Lexer} {P Q : Lexer → Prop} (h : Ends first lx P)
    (hnext : ∀ lx', P lx' → Ends next lx' Q) : Ends (first || next) lx Q := by
  cases first with
  | true => exact h
  | false => exact Leads.ends h hnext

/-! ## Turns -/

theorem unroll_of_none {lx : Lexer} (hindent : lx.indent = -1) (houter : lx.outer = []) {column : Int}
    (hcolumn : -1 ≤ column) : lx.unroll column = lx := by
  have hkept : ¬column < -1 := by omega
  rw [unroll]
  split
  · rfl
  · obtain ⟨cur, tokens, indent, outer, flow, keyAllowed, keys⟩ := lx
    simp only at hindent houter
    subst hindent houter
    simp [hkept]

/-- What is left of a key start once the lexer has got to a place. -/
def fresh (cur : Cursor) : Option KeyStart → Option KeyStart
  | some k => if k.line < cur.line || k.bytes + 1024 < cur.bytes then none else some k
  | none => none

theorem dropStale_eq {lx : Lexer} (hkeys : ∀ k, some k ∈ lx.keys → k.required = false) :
    lx.dropStale = some { lx with keys := lx.keys.map (fresh lx.cur) } := by
  have hmap : ∀ (f : Option KeyStart → Option (Option KeyStart)) (keys : List (Option KeyStart)),
      (∀ k ∈ keys, f k = some (fresh lx.cur k)) → keys.mapM f = some (keys.map (fresh lx.cur)) := by
    intro f keys h
    induction keys with
    | nil => rfl
    | cons k keys ih =>
      rw [List.mapM_cons, h k List.mem_cons_self, ih fun k hk => h k (List.mem_cons_of_mem _ hk)]
      rfl
  rw [dropStale, hmap]
  · rfl
  · rintro (_ | k) hk
    · rfl
    · simp only [fresh, hkeys k hk]
      split <;> rfl

theorem required_of_mem_fresh {lx : Lexer} (hkeys : ∀ k, some k ∈ lx.keys → k.required = false) :
    ∀ k, some k ∈ lx.keys.map (fresh lx.cur) → k.required = false := by
  intro k hk
  obtain ⟨k?, hmem, heq⟩ := List.mem_map.1 hk
  cases k? with
  | none => cases heq
  | some k' =>
    rw [fresh] at heq
    split at heq
    · cases heq
    · cases heq
      exact hkeys k hmem

theorem At.withKeys {flow : Nat} {tokens : List Token} {rest : List Char} {lx : Lexer}
    (h : At flow tokens rest lx) {keys : List (Option KeyStart)}
    (hkeys : ∀ k, some k ∈ keys → k.required = false) : At flow tokens rest { lx with keys := keys } :=
  ⟨h.flow, h.tokens, h.rest, h.indent, h.outer, hkeys⟩

/-- A turn of the lexer from where a token starts. -/
theorem run_token {flow : Nat} {tokens : List Token} {c : Char} {rest : List Char} {lx : Lexer}
    (h : At flow tokens (c :: rest) lx) (hc : startsToken c = true) (fuel : Nat) :
    lx.run (fuel + 1) =
      ({ lx with keys := lx.keys.map (fresh lx.cur) }.token c rest).bind (run fuel) := by
  have hhead : ∀ d ∈ lx.cur.rest.head?, startsToken d = true := by
    rw [h.rest]
    rintro _ ⟨⟩
    exact hc
  have hunroll := @unroll_of_none { lx with keys := lx.keys.map (fresh lx.cur) } h.indent h.outer
    lx.cur.column (by omega)
  rw [run, toNextToken_token hhead]
  simp only [Option.bind_eq_bind, Option.bind_some, dropStale_eq h.keys]
  rw [hunroll]
  simp only [h.rest]
  cases { lx with keys := lx.keys.map (fresh lx.cur) }.token c rest <;> rfl

theorem leads_token {flow : Nat} {tokens : List Token} {c : Char} {rest : List Char} {lx lx' : Lexer}
    (h : At flow tokens (c :: rest) lx) (hc : startsToken c = true)
    (htoken : { lx with keys := lx.keys.map (fresh lx.cur) }.token c rest = some lx')
    (hshort : lx'.cur.rest.length ≤ rest.length) {P : Lexer → Prop} (hp : P lx') : lx.Leads P := by
  refine ⟨lx', fun fuel hfuel => ?_, hp⟩
  rw [h.rest, List.length_cons] at hfuel
  obtain ⟨fuel, rfl⟩ : ∃ n, fuel = n + 1 := ⟨fuel - 1, by omega⟩
  exact ⟨fuel, by omega, by rw [run_token h hc, htoken, Option.bind_some]⟩

/-- A token that is refused ends the text. -/
theorem ends_token {flow : Nat} {tokens : List Token} {c : Char} {rest : List Char} {lx : Lexer}
    (h : At flow tokens (c :: rest) lx) (hc : startsToken c = true)
    (htoken : { lx with keys := lx.keys.map (fresh lx.cur) }.token c rest = none)
    {P : Lexer → Prop} : Ends true lx P := by
  rintro (_ | fuel) hfuel
  · rfl
  · rw [run_token h hc, htoken, Option.bind_none]

theorem leads_blank {flow : Nat} {tokens : List Token} {blank rest : List Char} {lx : Lexer}
    (h : At flow tokens (blank ++ rest) lx) (hblank : ∀ c ∈ blank, Json.isSpace c = true)
    (hrest : ∀ c ∈ rest.head?, startsToken c = true) (hpasses : lx.Passes blank) :
    lx.Leads fun lx' => At flow tokens rest lx' ∧ (lx.keyAllowed = true → lx'.keyAllowed = true) ∧
      lx'.tokens = lx.tokens ∧ lx'.keys = lx.keys ∧
      ((∀ c ∈ blank, isBreak c = false) → lx'.cur = lx.cur.past blank rest) := by
  have hlength : blank.length < lx.cur.rest.length + 1 := by
    rw [h.rest, List.length_append]
    omega
  obtain ⟨cur, allowed, hnext, hcur, hallowed, hpast⟩ :=
    toNextToken_blank hrest hblank hlength h.rest hpasses
  refine ⟨{ lx with cur := cur, keyAllowed := allowed }, fun fuel hfuel => ?_,
    ⟨h.flow, h.tokens, hcur, h.indent, h.outer, h.keys⟩, hallowed, rfl, rfl, hpast⟩
  refine ⟨fuel, ?_, ?_⟩
  · simp only [h.rest, List.length_append] at hfuel
    simp only [hcur]
    omega
  · cases fuel with
    | zero => rfl
    | succ fuel =>
      rw [run, run, hnext, toNextToken_token (by simpa only [hcur] using hrest)]

/-! ## Tokens -/

section

variable {flow : Nat} {tokens : List Token} {c : Char} {t : Token} {rest : List Char} {lx : Lexer}

theorem exists_dropKey (h : At flow tokens rest lx) : ∃ keys,
    lx.dropKey = some { lx with keys := keys } ∧ keys.drop 1 = lx.keys.drop 1 ∧
      ∀ k, some k ∈ keys → k.required = false := by
  have hkeys := h.keys
  rw [dropKey]
  split
  · rename_i k ks heq
    rw [heq] at hkeys
    refine ⟨none :: ks, by rw [hkeys k List.mem_cons_self]; rfl, by rw [heq]; rfl, fun k' hk' => ?_⟩
    rcases List.mem_cons.1 hk' with hk' | hk'
    · cases hk'
    · exact hkeys k' (List.mem_cons_of_mem _ hk')
  · exact ⟨lx.keys, rfl, rfl, hkeys⟩

/-- The place where the lexer is, as one where a key may start. -/
def keyHere (lx : Lexer) : KeyStart :=
  ⟨false, lx.tokens.size, lx.cur.bytes, lx.cur.line, lx.cur.column⟩

theorem saveKey_eq (h : At flow tokens rest lx) (hallowed : lx.keyAllowed = true) :
    lx.saveKey = some { lx with keys := some lx.keyHere :: lx.keys.drop 1 } := by
  obtain ⟨keys, hdrop, htail, -⟩ := exists_dropKey h
  have hcolumn : lx.indent ≠ lx.cur.column := by
    rw [h.indent]
    omega
  rw [List.drop_one, List.drop_one] at htail
  rw [saveKey, hdrop]
  simp [keyHere, hallowed, hcolumn, htail]

theorem exists_saveKey (h : At flow tokens rest lx) : ∃ keys,
    lx.saveKey = some { lx with keys := keys } ∧ (∀ k, some k ∈ keys → k.required = false) ∧
      (lx.keyAllowed = true → keys.head? = some (some lx.keyHere)) := by
  by_cases hallowed : lx.keyAllowed = true
  · refine ⟨_, saveKey_eq h hallowed, fun k hk => ?_, fun _ => rfl⟩
    rcases List.mem_cons.1 hk with hk | hk
    · cases hk
      rfl
    · exact h.keys k (List.mem_of_mem_drop hk)
  · exact ⟨lx.keys, by rw [saveKey, if_pos (by simp [hallowed])], h.keys, fun hk => absurd hk hallowed⟩

/-- No directive and no document marker is ahead. -/
theorem noMarker (h : At flow tokens (c :: rest) lx) (hc : c ≠ '%')
    (hmarker : (c ≠ '-' ∨ rest.head? ≠ some '-') ∧ c ≠ '.') :
    (decide (lx.cur.column = 0) && decide (c = '%')) = false ∧ lx.cur.atMarker = false := by
  refine ⟨by simp [hc], Cursor.atMarker_of_head h.rest hmarker⟩

theorem leads_open (hc : c = '[' ∧ t = .flowSequence ∨ c = '\x7b' ∧ t = .flowMapping)
    (h : At flow tokens (c :: rest) lx) : lx.Leads fun lx' =>
      At (flow + 1) (tokens ++ [t]) rest lx' ∧ lx'.keyAllowed = true := by
  have hstate := h.withKeys (required_of_mem_fresh h.keys)
  obtain ⟨keys, hsave, hkeys, -⟩ := exists_saveKey hstate
  have htoken : { lx with keys := lx.keys.map (fresh lx.cur) }.token c rest =
      { lx with keys := lx.keys.map (fresh lx.cur) }.openFlow t := by
    obtain ⟨hpercent, hmarker⟩ := noMarker hstate (by rcases hc with ⟨rfl, -⟩ | ⟨rfl, -⟩ <;> decide)
      (by rcases hc with ⟨rfl, -⟩ | ⟨rfl, -⟩ <;> simp)
    rw [token, hpercent, hmarker]
    rcases hc with ⟨rfl, rfl⟩ | ⟨rfl, rfl⟩ <;> simp
  rw [openFlow, hsave] at htoken
  refine leads_token h (by rcases hc with ⟨rfl, -⟩ | ⟨rfl, -⟩ <;> decide) htoken ?_ ⟨?_, rfl⟩
  · simp [pushChars, Cursor.advance, h.rest]
  · exact ⟨by simp [h.flow], by simp [pushChars, h.tokens], by simp [pushChars, Cursor.advance, h.rest],
      h.indent, h.outer, fun k hk => hkeys k (by simpa using hk)⟩

theorem leads_close (hc : c = ']' ∧ t = .flowSequenceEnd ∨ c = '\x7d' ∧ t = .flowMappingEnd)
    (h : At (flow + 1) tokens (c :: rest) lx) : lx.Leads fun lx' =>
      At flow (tokens ++ [t]) rest lx' ∧ lx'.keyAllowed = false := by
  have hstate := h.withKeys (required_of_mem_fresh h.keys)
  obtain ⟨keys, hdrop, -, hkeys⟩ := exists_dropKey hstate
  have htoken : { lx with keys := lx.keys.map (fresh lx.cur) }.token c rest =
      { lx with keys := lx.keys.map (fresh lx.cur) }.closeFlow t := by
    obtain ⟨hpercent, hmarker⟩ := noMarker hstate (by rcases hc with ⟨rfl, -⟩ | ⟨rfl, -⟩ <;> decide)
      (by rcases hc with ⟨rfl, -⟩ | ⟨rfl, -⟩ <;> simp)
    rw [token, hpercent, hmarker]
    rcases hc with ⟨rfl, rfl⟩ | ⟨rfl, rfl⟩ <;> simp
  rw [closeFlow, hdrop] at htoken
  refine leads_token h (by rcases hc with ⟨rfl, -⟩ | ⟨rfl, -⟩ <;> decide) htoken ?_ ⟨?_, rfl⟩
  · simp [pushChars, Cursor.advance, h.rest]
  · refine ⟨by simp [h.flow], by simp [pushChars, h.tokens],
      by simp [pushChars, Cursor.advance, h.rest], h.indent, h.outer, fun k hk => hkeys k ?_⟩
    simp only [h.flow, Nat.add_one_ne_zero, if_false] at hk
    exact List.mem_of_mem_drop hk

theorem leads_comma (h : At flow tokens (',' :: rest) lx) : lx.Leads fun lx' =>
    At flow (tokens ++ [.flowEntry]) rest lx' ∧ lx'.keyAllowed = true := by
  have hstate := h.withKeys (required_of_mem_fresh h.keys)
  obtain ⟨keys, hdrop, -, hkeys⟩ := exists_dropKey hstate
  have htoken : { lx with keys := lx.keys.map (fresh lx.cur) }.token ',' rest =
      { lx with keys := lx.keys.map (fresh lx.cur) }.flowEntry := by
    obtain ⟨hpercent, hmarker⟩ := noMarker hstate (by decide) (by simp)
    rw [token, hpercent, hmarker]
    simp
  rw [flowEntry, hdrop] at htoken
  refine leads_token h (by decide) htoken ?_ ⟨?_, rfl⟩
  · simp [pushChars, Cursor.advance, h.rest]
  · exact ⟨h.flow, by simp [pushChars, h.tokens], by simp [pushChars, Cursor.advance, h.rest],
      h.indent, h.outer, hkeys⟩

/-- A text in quotes; where a key may start, one may have started here. -/
theorem ends_quoted {ps : List Json.Piece} (hps : ∀ p ∈ ps, p.Portable)
    (h : At flow tokens ('\x22' :: (Json.spelled ps ++ rest)) lx) :
    Ends (ps.any Json.Piece.isPair) lx fun lx' =>
      At flow (tokens ++ [.scalar (ps.map Json.Piece.meant) false]) rest lx' ∧
        lx'.keyAllowed = false ∧ lx'.cur = lx.cur.past ('\x22' :: Json.spelled ps) rest ∧
        (lx.keyAllowed = true → lx'.keys.head? = some (some lx.keyHere)) := by
  have hstate := h.withKeys (required_of_mem_fresh h.keys)
  obtain ⟨keys, hsave, hkeys, hhead⟩ := exists_saveKey hstate
  have hadvance : lx.cur.advance 1 = lx.cur.past ['\x22'] (Json.spelled ps ++ rest) :=
    Cursor.advance_one h.rest
  have hfuel : ps.length < (Json.spelled ps ++ rest).length + 1 := by
    have hle := length_le_flatMap_chars ps
    simp only [Json.spelled, List.length_append]
    omega
  have hcolumn : 0 < (lx.cur.past ['\x22'] (Json.spelled ps ++ rest)).column := Nat.succ_pos _
  have hquoted := fun text => @quoted_spelled _ hps _ hfuel _ hcolumn text rest rfl
  have htoken : { lx with keys := lx.keys.map (fresh lx.cur) }.token '\x22' (Json.spelled ps ++ rest) =
      { lx with keys := lx.keys.map (fresh lx.cur) }.keyLike (quotedScalar false) := by
    obtain ⟨hpercent, hmarker⟩ := noMarker hstate (by decide) (by simp)
    rw [token, hpercent, hmarker]
    simp
  rw [keyLike, hsave] at htoken
  simp only [Option.bind_eq_bind, Option.bind_some, quotedScalar, hadvance, Cursor.rest_past,
    hquoted, List.nil_append, Option.pure_def] at htoken
  cases hpair : ps.any Json.Piece.isPair with
  | true =>
    rw [hpair, if_pos rfl] at htoken
    exact ends_token h (by decide) htoken
  | false =>
    simp only [hpair, Bool.false_eq_true, if_false, Option.bind_some] at htoken
    refine leads_token h (by decide) htoken ?_ ⟨?_, rfl, ?_, ?_⟩
    · simp [Cursor.rest_past]
    · exact ⟨h.flow, by simp [push, h.tokens], rfl, h.indent, h.outer, hkeys⟩
    · exact Cursor.past_past _ _ _ _ _
    · exact hhead

/-- A word without quotes: no indicator starts it, or a hyphen before a character of it. -/
structure IsWord (word : List Char) : Prop where
  chars : ∀ c ∈ word, isWordChar c = true
  head : ∃ c cs, word = c :: cs ∧ startsToken c = true ∧ c ≠ '.' ∧
    (isIndicator c = false ∨ c = '-' ∧ ∃ d ds, cs = d :: ds ∧ d ≠ '-')

theorem IsWord.noMarker {word : List Char} (hword : IsWord word) (h : At flow tokens (word ++ rest) lx) :
    lx.cur.atMarker = false := by
  obtain ⟨c, cs, rfl, -, hdot, hhead⟩ := hword.head
  refine Cursor.atMarker_of_head h.rest ⟨?_, hdot⟩
  rcases hhead with hc | ⟨-, d, ds, rfl, hd⟩
  · refine .inl ?_
    rintro rfl
    cases hc
  · exact .inr fun heq => hd (Option.some.inj heq)

theorem token_word {word cs : List Char} (hword : IsWord word) (hcons : word = c :: cs)
    (h : At flow tokens (word ++ rest) lx) : lx.token c (cs ++ rest) = lx.keyLike plainScalar := by
  have hmarker := hword.noMarker h
  obtain ⟨c', cs', hcons', hstarts, -, hhead⟩ := hword.head
  obtain ⟨rfl, rfl⟩ := List.cons.inj (hcons.symm.trans hcons')
  rw [token, hmarker]
  rcases hhead with hhead | ⟨rfl, d, ds, rfl, -⟩
  · simp only [startsToken, Bool.and_eq_true, Bool.not_eq_true'] at hstarts
    have hspace := hstarts.1.1.1
    simp only [isIndicator, List.contains_eq_mem, List.mem_cons, List.not_mem_nil, or_false, not_or,
      decide_eq_false_iff_not] at hhead
    simp [hhead, isIndicator, hspace]
  · have hd := hword.chars d (by simp [hcons])
    simp only [isWordChar, Bool.and_eq_true, Bool.not_eq_true'] at hd
    have hends : endsWord (d :: (ds ++ rest)) = false := by simp [endsWord, hd]
    simp [hends]

theorem exists_plainScalar {word after : List Char} (hword : IsWord word)
    (hafter : ∀ c ∈ after, Json.isSpace c = true) (hrest : EndsWord (flow ≠ 0) rest)
    (h : At flow tokens (word ++ (after ++ rest)) lx) : ∃ broke next,
      lx.plainScalar = some (.scalar word true, broke, next) ∧ next.rest = rest := by
  have hmarker := hword.noMarker h
  obtain ⟨c, cs, rfl, hstarts, -⟩ := hword.head
  have hcomment : (c :: cs).head? ≠ some '#' := by
    intro heq
    obtain rfl : c = '#' := Option.some.inj heq
    cases hstarts
  have hlength : lx.cur.rest.length + 1 = (cs ++ (after ++ rest)).length + 2 := by
    rw [h.rest]
    rfl
  have hindent : lx.indent + 1 ≤ 0 := by rw [h.indent]; decide
  obtain ⟨broke, next, hplain, hnext⟩ := @plain_word _ _ hindent _ _ _ hword.chars
    (List.cons_ne_nil c cs) hcomment hafter hrest (cs ++ (after ++ rest)).length _ h.rest hmarker
  refine ⟨broke, next, ?_, hnext⟩
  rw [plainScalar, hlength, h.flow, hplain]
  rfl

/-- A word without quotes takes the blanks after it, too. -/
theorem leads_word {word after : List Char} (hword : IsWord word)
    (hafter : ∀ c ∈ after, Json.isSpace c = true) (hrest : EndsWord (flow ≠ 0) rest)
    (h : At flow tokens (word ++ (after ++ rest)) lx) :
    lx.Leads (At flow (tokens ++ [.scalar word true]) rest) := by
  have hstate := h.withKeys (required_of_mem_fresh h.keys)
  obtain ⟨keys, hsave, hkeys, -⟩ := exists_saveKey hstate
  obtain ⟨broke, next, hplain, hnext⟩ := exists_plainScalar hword hafter hrest (hstate.withKeys hkeys)
  obtain ⟨c, cs, hcons, hstarts, -⟩ := hword.head
  have htoken := token_word hword hcons hstate
  rw [keyLike, hsave] at htoken
  simp only [Option.bind_eq_bind, Option.bind_some, hplain, Option.pure_def] at htoken
  rw [hcons, List.cons_append] at h
  refine leads_token h hstarts htoken ?_ ?_
  · simp only [hnext, List.length_append]
    omega
  · exact ⟨h.flow, by simp [push, h.tokens], hnext, h.indent, h.outer, hkeys⟩

/-! ## Keys -/

/-- Before the last token. -/
theorem toList_insertIdx_last {all : Array Token} (hall : all.toList = tokens ++ [t]) (t' : Token) :
    (all.insertIdxIfInBounds tokens.length t').toList = tokens ++ [t', t] := by
  have hlast : ∀ ts : List Token, (ts ++ [t]).insertIdx ts.length t' = ts ++ [t', t] := by
    intro ts
    induction ts with
    | nil => rfl
    | cons u ts ih => simp [ih]
  have hsize : tokens.length ≤ all.size := by
    rw [← Array.length_toList, hall, List.length_append]
    omega
  rw [Array.insertIdxIfInBounds, dif_pos hsize, Array.toList_insertIdx, hall, hlast]

theorem value_of_flow (hflow : lx.flow ≠ 0) {k : KeyStart} {keys : List (Option KeyStart)}
    (hkeys : lx.keys = some k :: keys) :
    lx.value = some { (lx.insert k.token .key).pushChars .value 1 with
      keys := none :: keys, keyAllowed := false } := by
  have hroll : ∀ lx' : Lexer, lx'.flow ≠ 0 → lx'.roll k.column (some k.token) .blockMapping = lx' := by
    intro lx' h
    rw [roll, if_pos (by simp [h])]
  rw [value, hkeys]
  simp only []
  rw [hroll (lx.insert k.token .key) hflow]

/-- A colon makes the scalar before it a key. -/
theorem leads_value (hflow : flow ≠ 0) (h : At flow (tokens ++ [t]) (':' :: rest) lx) {k : KeyStart}
    (hkey : (lx.keys.map (fresh lx.cur)).head? = some (some k)) (htoken : k.token = tokens.length) :
    lx.Leads (At flow (tokens ++ [.key, t, .value]) rest) := by
  have hstate := h.withKeys (required_of_mem_fresh h.keys)
  obtain ⟨keys, hkeys⟩ := List.head?_eq_some_iff.1 hkey
  have hturn : { lx with keys := lx.keys.map (fresh lx.cur) }.token ':' rest =
      { lx with keys := lx.keys.map (fresh lx.cur) }.value := by
    obtain ⟨hpercent, hmarker⟩ := noMarker hstate (by decide) (by simp)
    rw [token, hpercent, hmarker]
    simp [h.flow, hflow]
  rw [value_of_flow (h.flow.symm ▸ hflow) hkeys] at hturn
  refine leads_token h (by decide) hturn ?_ ?_
  · simp [pushChars, insert, Cursor.advance, h.rest]
  · refine ⟨h.flow, ?_, by simp [pushChars, insert, Cursor.advance, h.rest], h.indent, h.outer,
      fun k' hk' => ?_⟩
    · have hinsert := toList_insertIdx_last h.tokens .key
      rw [← htoken] at hinsert
      simp [pushChars, insert, hinsert]
    · rcases List.mem_cons.1 hk' with hk' | hk'
      · cases hk'
      · exact hstate.keys k' (by simp only [hkeys]; exact List.mem_cons_of_mem _ hk')

/-- A name with its colon. -/
theorem ends_key {k : Json.Key} (hk : k.Portable) (hflow : flow ≠ 0) (hallowed : lx.keyAllowed = true)
    (h : At flow tokens ('\x22' :: (k.chars ++ rest)) lx) : Ends k.hasPair lx (At flow
      (tokens ++ [.key, .scalar (k.pieces.map Json.Piece.meant) false, .value]) rest) := by
  rw [Json.Key.chars, List.append_assoc, List.append_assoc] at h
  refine (ends_quoted hk.pieces h).leads fun lx₁ h₁ => ?_
  obtain ⟨hat₁, -, hcur₁, hkeys₁⟩ := h₁
  refine (leads_blank hat₁ k.gap.spaces (by rintro _ ⟨⟩; decide)
    (.inl (by rw [hat₁.flow]; exact hflow))).trans fun lx₂ h₂ => ?_
  obtain ⟨hat₂, -, -, hkeys₂, hcur₂⟩ := h₂
  -- The name has not gone stale on the way to its colon.
  have hfresh : fresh lx₂.cur (some lx.keyHere) = some lx.keyHere := by
    have hshort := hk.short
    rw [hcur₂ hk.line, hcur₁, Cursor.past_past, List.cons_append, fresh]
    refine if_neg fun hstale => ?_
    simp only [keyHere, Cursor.past, Nat.lt_irrefl, decide_false, Bool.false_or] at hstale
    have hlong := of_decide_eq_true hstale
    omega
  obtain ⟨ks, hks⟩ := List.head?_eq_some_iff.1 (hkeys₁ hallowed)
  have hkey : (lx₂.keys.map (fresh lx₂.cur)).head? = some (some lx.keyHere) := by
    rw [hkeys₂, hks, List.map_cons, List.head?_cons, hfresh]
  have hsize : lx.keyHere.token = tokens.length := by
    rw [keyHere, ← h.tokens, Array.length_toList]
  exact leads_value hflow hat₂ hkey hsize

end

/-- At the end of the text the tokens are complete. -/
theorem run_of_at {tokens : List Token} {lx : Lexer} (h : At 0 tokens [] lx) {fuel : Nat}
    (hfuel : 0 < fuel) : lx.run fuel = some tokens := by
  obtain ⟨fuel, rfl⟩ : ∃ n, fuel = n + 1 := ⟨fuel - 1, by omega⟩
  have hstate : At 0 tokens [] { lx with keys := lx.keys.map (fresh lx.cur) } :=
    h.withKeys (required_of_mem_fresh h.keys)
  have hunroll := fun column hcolumn => @unroll_of_none _ hstate.indent hstate.outer column hcolumn
  obtain ⟨keys, hdrop, -, -⟩ := exists_dropKey hstate
  rw [run, toNextToken_token (by rw [h.rest]; rintro _ ⟨⟩)]
  simp only [Option.bind_eq_bind, Option.bind_some, dropStale_eq h.keys]
  rw [hunroll _ (by omega)]
  simp only [h.rest]
  rw [hunroll _ (by omega), hdrop, Option.map_some, h.tokens]

end Lexer

end Yaml

end Rollout
