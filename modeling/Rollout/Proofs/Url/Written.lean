import Rollout.Proofs.Text.Pieces
import Rollout.Proofs.Text.Units
import Rollout.Url.Query

/-! # Queries read back

What is encoded decodes to the bytes it was made of, character by character, and holds neither of
the two separators, so a query that is written has its parameters again when it is read. -/
namespace Rollout.Url
set_option autoImplicit false

/-! ## Bytes -/

theorem hexValue?_hexUpper_of_lt {n : ℕ} (h : n < 16) :
    Text.hexValue? (Text.hexUpper n) = some n := Text.hexValue?_hexUpper ⟨n, h⟩

theorem octet?_hexUpper (b : UInt8) :
    octet? (Text.hexUpper (b.toNat / 16)) (Text.hexUpper (b.toNat % 16)) = some b := by
  have hlt : b.toNat < 256 := b.toNat_lt
  have hhigh : b.toNat / 16 < 16 := by omega
  have hlow : b.toNat % 16 < 16 := by omega
  have hsum : b.toNat / 16 * 16 + b.toNat % 16 = b.toNat := by omega
  rw [octet?, hexValue?_hexUpper_of_lt hhigh, hexValue?_hexUpper_of_lt hlow]
  show some (UInt8.ofNat (b.toNat / 16 * 16 + b.toNat % 16)) = some b
  rw [hsum, UInt8.ofNat_toNat]

theorem decodedBytes_escapeByte (b : UInt8) (rest : List Char) :
    decodedBytes (escapeByte b ++ rest) = b :: decodedBytes rest := by
  simp only [escapeByte, List.cons_append, List.nil_append, decodedBytes, octet?_hexUpper]

theorem decodedBytes_escapeBytes (bs : List UInt8) (rest : List Char) :
    decodedBytes (bs.flatMap escapeByte ++ rest) = bs ++ decodedBytes rest := by
  induction bs with
  | nil => rfl
  | cons b bs ih =>
    rw [List.flatMap_cons, List.append_assoc, decodedBytes_escapeByte, ih, List.cons_append]

theorem decodedBytes_plain {c : Char} (hpercent : c ≠ '%') (hplus : c ≠ '+') (rest : List Char) :
    decodedBytes (c :: rest) = String.utf8EncodeChar c ++ decodedBytes rest := by
  rw [decodedBytes]
  · rw [if_neg hplus]
  · rintro a b rest' rfl
    exact absurd rfl hpercent

theorem ne_of_isUnreserved {c d : Char} (hc : isUnreserved c = true)
    (hd : isUnreserved d = false) : c ≠ d := by
  rintro rfl
  rw [hc] at hd
  cases hd

theorem decodedBytes_encodeChar (c : Char) (rest : List Char) :
    decodedBytes (encodeChar c ++ rest) = String.utf8EncodeChar c ++ decodedBytes rest := by
  unfold encodeChar
  split
  · rename_i hc
    have hpercent : c ≠ '%' := ne_of_isUnreserved hc (by decide)
    have hplus : c ≠ '+' := ne_of_isUnreserved hc (by decide)
    exact decodedBytes_plain hpercent hplus rest
  · split
    · rename_i hspace
      subst hspace
      rfl
    · exact decodedBytes_escapeBytes _ rest

theorem decodedBytes_encode_append (s : String) (rest : List Char) :
    decodedBytes (encode s ++ rest) = Text.bytes s ++ decodedBytes rest := by
  unfold encode Text.bytes
  induction s.toList with
  | nil => rfl
  | cons c cs ih =>
    rw [List.flatMap_cons, List.append_assoc, decodedBytes_encodeChar, ih, List.flatMap_cons,
      List.append_assoc]

theorem decodedBytes_encode (s : String) : decodedBytes (encode s) = Text.bytes s := by
  have happend := decodedBytes_encode_append s []
  rwa [List.append_nil, decodedBytes, List.append_nil] at happend

theorem decode_encode (s : String) : decode (encode s) = s := by
  rw [decode, decodedBytes_encode, Text.ofBytesLossy_bytes]

/-! ## Separators -/

theorem isUnreserved_hexUpper {n : ℕ} (h : n < 16) : isUnreserved (Text.hexUpper n) = true := by
  have hall : ∀ i : Fin 16, isUnreserved (Text.hexUpper i) = true := by decide
  exact hall ⟨n, h⟩

theorem mem_escapeByte {b : UInt8} {x : Char} (h : x ∈ escapeByte b) :
    isUnreserved x = true ∨ x = '%' := by
  have hlt : b.toNat < 256 := b.toNat_lt
  have hhigh : b.toNat / 16 < 16 := by omega
  have hlow : b.toNat % 16 < 16 := by omega
  simp only [escapeByte, List.mem_cons, List.not_mem_nil, or_false] at h
  rcases h with rfl | rfl | rfl
  · exact .inr rfl
  · exact .inl (isUnreserved_hexUpper hhigh)
  · exact .inl (isUnreserved_hexUpper hlow)

/-- Encoded texts are made of unreserved characters and two signs. -/
theorem mem_encode {s : String} {x : Char} (h : x ∈ encode s) :
    isUnreserved x = true ∨ x = '%' ∨ x = '+' := by
  obtain ⟨c, -, hx⟩ := List.mem_flatMap.1 h
  unfold encodeChar at hx
  split at hx
  · rename_i hc
    rw [List.mem_singleton.1 hx]
    exact .inl hc
  · split at hx
    · exact .inr (.inr (List.mem_singleton.1 hx))
    · obtain ⟨b, -, hx⟩ := List.mem_flatMap.1 hx
      exact (mem_escapeByte hx).imp_right .inl

theorem not_mem_encode {c : Char} (hreserved : isUnreserved c = false) (hpercent : c ≠ '%')
    (hplus : c ≠ '+') (s : String) : c ∉ encode s := by
  intro h
  rcases mem_encode h with hc | hc | hc
  · rw [hreserved] at hc
    cases hc
  · exact hpercent hc
  · exact hplus hc

theorem ampersand_not_mem_encode (s : String) : '&' ∉ encode s :=
  not_mem_encode (by decide) (by decide) (by decide) s

theorem equals_not_mem_encode (s : String) : '=' ∉ encode s :=
  not_mem_encode (by decide) (by decide) (by decide) s

theorem question_not_mem_encode (s : String) : '?' ∉ encode s :=
  not_mem_encode (by decide) (by decide) (by decide) s

/-! ## Parameters -/

theorem parameter_append (name : String) (value : List Char) :
    parameter (encode name ++ '=' :: value) = (name, decode value) := by
  have hname : ∀ c ∈ encode name, decide (c ≠ '=') = true := by
    intro c hc
    refine decide_eq_true ?_
    rintro rfl
    exact equals_not_mem_encode name hc
  rw [parameter, List.takeWhile_append_of_pos hname, List.dropWhile_append_of_pos hname]
  simp [decode_encode]

/-- Parameters whose values have been encoded before. -/
def writeEncoded (ps : List (String × List Char)) : List Char :=
  List.intercalate ['&'] (ps.map fun p => encode p.1 ++ '=' :: p.2)

def encodeValue (p : String × String) : String × List Char := (p.1, encode p.2)

theorem write_eq_writeEncoded (ps : List (String × String)) :
    write ps = writeEncoded (ps.map encodeValue) := by
  rw [write, writeEncoded, List.map_map]
  rfl

theorem parameters_writeEncoded {ps : List (String × List Char)} (h : ∀ p ∈ ps, '&' ∉ p.2) :
    parameters (writeEncoded ps) = ps.map fun p => (p.1, decode p.2) := by
  have hpieces : ∀ piece ∈ ps.map fun p => encode p.1 ++ '=' :: p.2,
      '&' ∉ piece ∧ piece ≠ [] := by
    intro piece hpiece
    obtain ⟨p, hp, rfl⟩ := List.mem_map.1 hpiece
    simp [ampersand_not_mem_encode p.1, h p hp]
  cases ps with
  | nil => rfl
  | cons p rest =>
    rw [parameters, writeEncoded,
      Text.pieces_intercalate (fun piece h => (hpieces piece h).1) (by simp),
      List.filter_eq_self.2 fun piece h => decide_eq_true (hpieces piece h).2, List.map_map]
    exact List.map_congr_left fun q _ => parameter_append q.1 q.2

theorem parameters_write (ps : List (String × String)) : parameters (write ps) = ps := by
  rw [write_eq_writeEncoded, parameters_writeEncoded, List.map_map]
  · have hdecoded : ∀ p ∈ ps, ((fun p => (p.1, decode p.2)) ∘ encodeValue) p = id p := by
      intro p _
      exact congrArg (Prod.mk p.1) (decode_encode p.2)
    rw [List.map_congr_left hdecoded, List.map_id]
  · intro q hq
    obtain ⟨p, -, rfl⟩ := List.mem_map.1 hq
    exact ampersand_not_mem_encode p.2

theorem write_singleton (p : String × String) : write [p] = encode p.1 ++ '=' :: encode p.2 := by
  simp [write]

/-! ## Question marks -/

/-- A written query holds no question mark, so one in front of it is the one that is taken off. -/
theorem query_writeEncoded {mark : List Char} (hmark : mark = [] ∨ mark = ['?'])
    {ps : List (String × List Char)} (h : ∀ p ∈ ps, '?' ∉ p.2) :
    query (mark ++ writeEncoded ps) = writeEncoded ps := by
  have hnone : '?' ∉ writeEncoded ps := by
    refine Text.not_mem_intercalate (by decide) fun piece hpiece => ?_
    obtain ⟨p, hp, rfl⟩ := List.mem_map.1 hpiece
    simp [question_not_mem_encode p.1, h p hp]
  rcases hmark with rfl | rfl
  · rw [List.nil_append]
    unfold query
    split
    · rename_i rest hquery
      rw [hquery] at hnone
      exact absurd List.mem_cons_self hnone
    · rfl
  · rfl

theorem query_write {mark : List Char} (hmark : mark = [] ∨ mark = ['?'])
    (ps : List (String × String)) : query (mark ++ write ps) = write ps := by
  rw [write_eq_writeEncoded]
  refine query_writeEncoded hmark fun q hq => ?_
  obtain ⟨p, -, rfl⟩ := List.mem_map.1 hq
  exact question_not_mem_encode p.2

end Rollout.Url
