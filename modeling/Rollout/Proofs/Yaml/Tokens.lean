import Rollout.Proofs.Json.Grammar
import Rollout.Proofs.Yaml.Lexed

/-! # The tokens of a JSON tree

A tree has its tokens, one for each bracket, comma and scalar, and two more for each name. The lexer
makes these from a portable text, or none if a pair of surrogates is in it, by induction on the tree. -/
namespace Rollout
set_option autoImplicit false

namespace Json

/-! ## Trees -/

def Scalar.token : Scalar → Yaml.Token
  | .text ps => .scalar (ps.map Piece.meant) false
  | x => .scalar x.chars true

def Key.tokens (k : Key) : List Yaml.Token :=
  [.key, .scalar (k.pieces.map Piece.meant) false, .value]

mutual

def Written.tokens : Written → List Yaml.Token
  | .scalar x => [x.token]
  | .emptyList _ => [.flowSequence, .flowSequenceEnd]
  | .list _ items => .flowSequence :: items.tokens
  | .emptyObject _ => [.flowMapping, .flowMappingEnd]
  | .object _ members => .flowMapping :: members.tokens

/-- The tokens up to the closing bracket. -/
def Items.tokens : Items → List Yaml.Token
  | .last w _ => w.tokens ++ [.flowSequenceEnd]
  | .cons w _ _ rest => w.tokens ++ .flowEntry :: rest.tokens

/-- The tokens up to the closing brace. -/
def Members.tokens : Members → List Yaml.Token
  | .last key _ w _ => key.tokens ++ (w.tokens ++ [.flowMappingEnd])
  | .cons key _ w _ _ rest => key.tokens ++ (w.tokens ++ .flowEntry :: rest.tokens)

end

/-! ## Words -/

def digitChars : List Char := ['0', '1', '2', '3', '4', '5', '6', '7', '8', '9']

theorem forall_mem_of_all {α : Type} {xs : List α} {P : α → Prop} [DecidablePred P]
    (h : xs.all (fun x => P x) = true) : ∀ x ∈ xs, P x :=
  fun x hx => of_decide_eq_true (List.all_eq_true.1 h x hx)

theorem mem_digitChars {c : Char} (h : c.isDigit = true) : c ∈ digitChars := by
  have hall : ∀ n < 10, Char.ofNat (48 + n) ∈ digitChars := by decide
  simp only [Char.isDigit, Bool.and_eq_true, decide_eq_true_eq] at h
  have hlow : 48 ≤ c.toNat := h.1
  have hhigh : c.toNat ≤ 57 := h.2
  have hmem := hall (c.toNat - 48) (by omega)
  rwa [Nat.add_sub_cancel' hlow, Char.ofNat_toNat] at hmem

theorem Exponent.mem_chars {e : Exponent} {c : Char} (h : c ∈ e.chars) :
    c ∈ digitChars ∨ c ∈ ['-', '+', '.', 'e', 'E'] := by
  rw [Exponent.chars, List.mem_cons, List.mem_append] at h
  rcases h with rfl | h | h
  · rcases e.isLetter with h | h <;> rw [h] <;> decide
  · rcases e.isSign with hs | hs | hs <;> rw [hs] at h <;> simp at h <;> simp [h]
  · exact .inl (mem_digitChars (e.digits.digits c h))

theorem Numeral.mem_chars {x : Numeral} {c : Char} (h : c ∈ x.chars) :
    c ∈ digitChars ∨ c ∈ ['-', '+', '.', 'e', 'E'] := by
  have hbody : c ∈ x.body → c ∈ digitChars ∨ c ∈ ['-', '+', '.', 'e', 'E'] := by
    rw [Numeral.body, List.mem_append]
    rintro (h | h)
    · exact .inl (mem_digitChars (x.whole.digits c h))
    · generalize x.tail = tail at h
      cases tail with
      | integer => cases h
      | exponent e => exact Exponent.mem_chars h
      | places ds =>
        rcases List.mem_cons.1 h with rfl | h
        · decide
        · exact .inl (mem_digitChars (ds.digits c h))
      | scientific ds e =>
        rcases List.mem_cons.1 h with rfl | h
        · decide
        · rcases List.mem_append.1 h with h | h
          · exact .inl (mem_digitChars (ds.digits c h))
          · exact Exponent.mem_chars h
  rw [Numeral.chars] at h
  split at h
  · rcases List.mem_cons.1 h with rfl | h
    · decide
    · exact hbody h
  · exact hbody h

theorem Numeral.isWord (x : Numeral) : Yaml.Lexer.IsWord x.chars := by
  refine ⟨fun c hc => ?_, ?_⟩
  · have hall : ∀ c ∈ digitChars ++ ['-', '+', '.', 'e', 'E'], Yaml.isWordChar c = true :=
      forall_mem_of_all rfl
    exact hall c (List.mem_append.2 (Numeral.mem_chars hc))
  · obtain ⟨c, cs, hbody, hc⟩ := x.exists_body
    have hall : ∀ c ∈ digitChars, Yaml.Lexer.startsToken c = true ∧ c ≠ '.' ∧
        Yaml.Lexer.isIndicator c = false ∧ c ≠ '-' := forall_mem_of_all rfl
    obtain ⟨hstarts, hdot, hindicator, hhyphen⟩ := hall c (mem_digitChars hc)
    rw [Numeral.chars]
    split
    · exact ⟨'-', x.body, rfl, by decide, by decide, .inr ⟨rfl, c, cs, hbody, hhyphen⟩⟩
    · exact ⟨c, cs, hbody, hstarts, hdot, .inl hindicator⟩

theorem Scalar.isWord {x : Scalar} (hx : x.isPlain = true) : Yaml.Lexer.IsWord x.chars := by
  cases x with
  | null => exact ⟨forall_mem_of_all rfl, _, _, rfl, by decide, by decide, .inl (by decide)⟩
  | boolean b =>
    cases b
    · exact ⟨forall_mem_of_all rfl, _, _, rfl, by decide, by decide, .inl (by decide)⟩
    · exact ⟨forall_mem_of_all rfl, _, _, rfl, by decide, by decide, .inl (by decide)⟩
  | text ps => cases hx
  | number x n h => exact x.isWord

/-! ## Lexing -/

section

open Yaml Yaml.Lexer

theorem startsToken_of_endsWord {flow : Bool} {rest : List Char} (h : EndsWord flow rest) :
    ∀ c ∈ rest.head?, startsToken c = true := by
  rcases h with rfl | ⟨-, c, more, rfl, hc⟩
  · rintro _ ⟨⟩
  · rintro _ ⟨⟩
    rcases hc with rfl | rfl | rfl <;> decide

theorem Written.startsToken_head (w : Written) (rest : List Char) :
    ∀ c ∈ (w.chars ++ rest).head?, startsToken c = true := by
  cases w with
  | scalar x =>
    by_cases hx : x.isPlain = true
    · obtain ⟨c, cs, hcons, hstarts, -⟩ := (Scalar.isWord hx).head
      rw [Written.chars, hcons]
      rintro _ ⟨⟩
      exact hstarts
    · cases x with
      | text ps =>
        rintro _ ⟨⟩
        decide
      | _ => exact absurd rfl hx
  | _ =>
    rintro _ ⟨⟩
    decide

theorem Items.startsToken_head (is : Items) (rest : List Char) :
    ∀ c ∈ (is.chars ++ rest).head?, startsToken c = true := by
  cases is with
  | last w after =>
    rw [Items.chars, List.append_assoc]
    exact w.startsToken_head _
  | cons w after next more =>
    rw [Items.chars, List.append_assoc]
    exact w.startsToken_head _

/-- Behind a value. The blanks after it are still ahead if it ends with a bracket or a quote. -/
def Behind (w : Written) (flow : Nat) (tokens : List Token) (after rest : List Char) (lx : Lexer) :
    Prop :=
  w.isPlain = true ∧ At flow tokens rest lx ∨
    w.isPlain = false ∧ At flow tokens (after ++ rest) lx ∧ lx.keyAllowed = false

section

variable {flow : Nat} {tokens : List Token} {blank : Blank} {rest : List Char} {lx : Lexer}

/-- Within brackets all blanks are passed. -/
theorem leads_inside (h : At (flow + 1) tokens (blank.chars ++ rest) lx)
    (hrest : ∀ c ∈ rest.head?, startsToken c = true) : lx.Leads fun lx' =>
      At (flow + 1) tokens rest lx' ∧ (lx.keyAllowed = true → lx'.keyAllowed = true) := by
  have hflow : lx.flow ≠ 0 := h.flow.symm ▸ Nat.succ_ne_zero flow
  exact (leads_blank h blank.spaces hrest (.inl hflow)).imp fun lx' h' => ⟨h'.1, h'.2.1⟩

theorem Behind.leads {w : Written} (h : Behind w (flow + 1) tokens blank.chars rest lx)
    (hrest : ∀ c ∈ rest.head?, startsToken c = true) : lx.Leads (At (flow + 1) tokens rest) := by
  rcases h with ⟨-, h⟩ | ⟨-, h, -⟩
  · exact leads_of h
  · exact (leads_inside h hrest).imp fun _ => And.left

end

theorem Scalar.lexes {x : Scalar} (hx : x.Portable) {flow : Nat} {tokens : List Token} {after : Blank}
    {rest : List Char} (hrest : EndsWord (flow ≠ 0) rest) {lx : Lexer}
    (h : At flow tokens (x.chars ++ (after.chars ++ rest)) lx) :
    Ends x.hasPair lx (Behind (.scalar x) flow (tokens ++ [x.token]) after.chars rest) := by
  cases x with
  | text ps =>
    exact (ends_quoted hx h).imp fun lx' h' => .inr ⟨rfl, h'.1, h'.2.1⟩
  | _ => exact (leads_word (Scalar.isWord rfl) after.spaces hrest h).imp fun lx' h' => .inl ⟨rfl, h'⟩

mutual

theorem Written.lexes : (w : Written) → w.Portable → ∀ {flow : Nat} {tokens : List Token}
    {after : Blank} {rest : List Char}, EndsWord (flow ≠ 0) rest → ∀ {lx : Lexer},
    At flow tokens (w.chars ++ (after.chars ++ rest)) lx →
    Ends w.hasPair lx (Behind w flow (tokens ++ w.tokens) after.chars rest)
  | .scalar x, hw, _, _, _, _, hrest, _, h => x.lexes hw hrest h
  | .emptyList blank, _, flow, tokens, after, rest, hrest, lx, h => by
    rw [Written.chars, List.cons_append, List.append_assoc] at h
    refine (leads_open (.inl ⟨rfl, rfl⟩) h).trans fun lx₁ h₁ => ?_
    refine (leads_inside h₁.1 (by rintro _ ⟨⟩; decide)).trans fun lx₂ h₂ => ?_
    refine (leads_close (.inl ⟨rfl, rfl⟩) h₂.1).imp fun lx₃ h₃ => .inr ⟨rfl, ?_⟩
    simpa [Written.tokens] using h₃
  | .emptyObject blank, _, flow, tokens, after, rest, hrest, lx, h => by
    rw [Written.chars, List.cons_append, List.append_assoc] at h
    refine (leads_open (.inr ⟨rfl, rfl⟩) h).trans fun lx₁ h₁ => ?_
    refine (leads_inside h₁.1 (by rintro _ ⟨⟩; decide)).trans fun lx₂ h₂ => ?_
    refine (leads_close (.inr ⟨rfl, rfl⟩) h₂.1).imp fun lx₃ h₃ => .inr ⟨rfl, ?_⟩
    simpa [Written.tokens] using h₃
  | .list blank items, hw, flow, tokens, after, rest, hrest, lx, h => by
    rw [Written.chars, List.cons_append, List.append_assoc] at h
    refine (leads_open (.inl ⟨rfl, rfl⟩) h).ends fun lx₁ h₁ => ?_
    refine (leads_inside h₁.1 (items.startsToken_head _)).ends fun lx₂ h₂ => ?_
    refine (items.lexes hw h₂.1).imp fun lx₃ h₃ => .inr ⟨rfl, ?_⟩
    simpa [Written.tokens] using h₃
  | .object blank members, hw, flow, tokens, after, rest, hrest, lx, h => by
    rw [Written.chars, List.cons_append, List.append_assoc] at h
    refine (leads_open (.inr ⟨rfl, rfl⟩) h).ends fun lx₁ h₁ => ?_
    refine (leads_inside h₁.1 (by rintro _ ⟨⟩; decide)).ends fun lx₂ h₂ => ?_
    refine (members.lexes hw h₂.1 (h₂.2 h₁.2)).imp fun lx₃ h₃ => .inr ⟨rfl, ?_⟩
    simpa [Written.tokens] using h₃

theorem Items.lexes : (is : Items) → is.Portable → ∀ {flow : Nat} {tokens : List Token}
    {rest : List Char} {lx : Lexer}, At (flow + 1) tokens (is.chars ++ rest) lx →
    Ends is.hasPair lx fun lx' => At flow (tokens ++ is.tokens) rest lx' ∧ lx'.keyAllowed = false
  | .last w after, hw, flow, tokens, rest, lx, h => by
    have hends : EndsWord (flow + 1 ≠ 0) (']' :: rest) := .inr ⟨by simp, _, _, rfl, by simp⟩
    rw [Items.chars, List.append_assoc, List.append_assoc] at h
    refine (w.lexes hw hends h).leads fun lx₁ h₁ => ?_
    refine (h₁.leads (startsToken_of_endsWord hends)).trans fun lx₂ h₂ => ?_
    refine (leads_close (.inl ⟨rfl, rfl⟩) h₂).imp fun lx₃ h₃ => ?_
    simpa [Items.tokens] using h₃
  | .cons w after next more, hw, flow, tokens, rest, lx, h => by
    have hends : EndsWord (flow + 1 ≠ 0) (',' :: (next.chars ++ (more.chars ++ rest))) :=
      .inr ⟨by simp, _, _, rfl, by simp⟩
    rw [Items.chars, List.append_assoc, List.append_assoc, List.cons_append, List.append_assoc] at h
    refine (w.lexes hw.1 hends h).trans fun lx₁ h₁ => ?_
    refine (h₁.leads (startsToken_of_endsWord hends)).ends fun lx₂ h₂ => ?_
    refine (leads_comma h₂).ends fun lx₃ h₃ => ?_
    refine (leads_inside h₃.1 (more.startsToken_head _)).ends fun lx₄ h₄ => ?_
    refine (more.lexes hw.2 h₄.1).imp fun lx₅ h₅ => ?_
    simpa [Items.tokens] using h₅

theorem Members.lexes : (ms : Members) → ms.Portable → ∀ {flow : Nat} {tokens : List Token}
    {rest : List Char} {lx : Lexer}, At (flow + 1) tokens ('\x22' :: (ms.chars ++ rest)) lx →
    lx.keyAllowed = true →
    Ends ms.hasPair lx fun lx' => At flow (tokens ++ ms.tokens) rest lx' ∧ lx'.keyAllowed = false
  | .last key before w after, hw, flow, tokens, rest, lx, h, hallowed => by
    have hends : EndsWord (flow + 1 ≠ 0) ('\x7d' :: rest) := .inr ⟨by simp, _, _, rfl, by simp⟩
    simp only [Members.chars, List.append_assoc, List.cons_append, List.nil_append] at h
    refine (ends_key hw.1 (Nat.succ_ne_zero flow) hallowed h).trans fun lx₁ h₁ => ?_
    refine (leads_inside h₁ (w.startsToken_head _)).ends fun lx₂ h₂ => ?_
    refine (w.lexes hw.2 hends h₂.1).leads fun lx₃ h₃ => ?_
    refine (h₃.leads (startsToken_of_endsWord hends)).trans fun lx₄ h₄ => ?_
    refine (leads_close (.inr ⟨rfl, rfl⟩) h₄).imp fun lx₅ h₅ => ?_
    simpa [Members.tokens, Key.tokens] using h₅
  | .cons key before w after next more, hw, flow, tokens, rest, lx, h, hallowed => by
    have hends : EndsWord (flow + 1 ≠ 0) (',' :: (next.chars ++ '\x22' :: (more.chars ++ rest))) :=
      .inr ⟨by simp, _, _, rfl, by simp⟩
    simp only [Members.chars, List.append_assoc, List.cons_append] at h
    refine (ends_key hw.1 (Nat.succ_ne_zero flow) hallowed h).trans fun lx₁ h₁ => ?_
    refine (leads_inside h₁ (w.startsToken_head _)).ends fun lx₂ h₂ => ?_
    refine (w.lexes hw.2.1 hends h₂.1).trans fun lx₃ h₃ => ?_
    refine (h₃.leads (startsToken_of_endsWord hends)).ends fun lx₄ h₄ => ?_
    refine (leads_comma h₄).ends fun lx₅ h₅ => ?_
    refine (leads_inside h₅.1 (by rintro _ ⟨⟩; decide)).ends fun lx₆ h₆ => ?_
    refine (more.lexes hw.2.2 h₆.1 (h₆.2 h₅.2)).imp fun lx₇ h₇ => ?_
    simpa [Members.tokens, Key.tokens] using h₇

end

/-- A text with a pair of surrogates has no tokens, and another one those of its tree. -/
theorem Page.lexes {p : Page} (hp : p.Portable) :
    Token.ofText? p.chars = if p.hasPair then none else some p.value.tokens := by
  have hchars : p.chars = p.lead.chars ++ (p.value.chars ++ (p.trail.chars ++ [])) := by
    rw [Page.chars, List.append_nil]
  have hstart : At 0 [] (p.lead.chars ++ (p.value.chars ++ (p.trail.chars ++ []))) (start p.chars) :=
    ⟨rfl, rfl, hchars, rfl, rfl, fun k hk => by simp [start] at hk⟩
  have hrest : EndsWord (0 ≠ 0) [] := .inl rfl
  have hlex : Ends p.hasPair (start p.chars) (At 0 p.value.tokens []) := by
    refine (leads_blank hstart p.lead.spaces (p.value.startsToken_head _)
      (.inr (.inl hp.lead))).ends fun lx₁ h₁ => ?_
    refine (p.value.lexes hp.value hrest h₁.1).leads fun lx₂ h₂ => ?_
    rcases h₂ with ⟨-, h₂⟩ | ⟨hplain, h₂, hallowed⟩
    · exact leads_of h₂
    · have htab := hp.trail.resolve_left (by simp [hplain])
      exact (leads_blank h₂ p.trail.spaces (by rintro _ ⟨⟩) (.inr (.inr ⟨hallowed, htab⟩))).imp
        fun _ => And.left
  have hreadable : p.chars.all isReadable = true := List.all_eq_true.2 hp.readable
  rw [Token.ofText?, if_pos hreadable]
  cases hpair : p.hasPair with
  | true =>
    rw [hpair] at hlex
    exact hlex _ (Nat.lt_succ_self _)
  | false =>
    rw [hpair] at hlex
    obtain ⟨lx, hreaches, hlx⟩ := hlex
    obtain ⟨fuel, hfuel, hrun⟩ := hreaches (p.chars.length + 1) (Nat.lt_succ_self _)
    rw [hrun]
    exact run_of_at hlx (Nat.zero_lt_of_lt hfuel)

end

end Json

end Rollout
