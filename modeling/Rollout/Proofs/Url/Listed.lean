import Rollout.Proofs.Text.Ascending
import Rollout.Proofs.Text.Trimmed
import Rollout.Proofs.Url.Written

/-! # Ids listed in a query

The ids of a parameter are joined by commas, which may be encoded like the rest or left as they are.
Reading the query gives the ids again, whatever stands before them under other names and after them
under any. Nothing but ids that can be listed is ever read from a query. -/
namespace Rollout.Url
set_option autoImplicit false

/-! ## Ids -/

/-- An id that can be listed: it is not empty, holds no comma and has no blank at either end. -/
structure IsListable (id : String) : Prop where
  ne_empty : id ≠ ""
  noComma : ',' ∉ id.toList
  bare : Text.Bare id.toList

instance (id : String) : Decidable (IsListable id) :=
  decidable_of_iff (id ≠ "" ∧ ',' ∉ id.toList ∧ Text.Bare id.toList)
    ⟨fun h => ⟨h.1, h.2.1, h.2.2⟩, fun h => ⟨h.ne_empty, h.noComma, h.bare⟩⟩

def joined (ids : List String) : List Char := List.intercalate [','] (ids.map String.toList)

theorem joined_cons_cons (x y : String) (rest : List String) :
    joined (x :: y :: rest) = x.toList ++ ',' :: joined (y :: rest) := by
  simp [joined, List.intercalate_cons_cons]

theorem idsOf_joined {ids : List String} (h : ∀ x ∈ ids, IsListable x) :
    idsOf (String.ofList (joined ids)) = ids := by
  cases ids with
  | nil => decide
  | cons x rest =>
    have hcommas : ∀ cs ∈ (x :: rest).map String.toList, ',' ∉ cs := by
      intro cs hcs
      obtain ⟨y, hy, rfl⟩ := List.mem_map.1 hcs
      exact (h y hy).noComma
    have htrimmed : ∀ y ∈ x :: rest,
        ((fun cs => String.ofList (Text.trimmed cs)) ∘ String.toList) y = y :=
      fun y hy => (h y hy).bare.trim_eq
    rw [idsOf, String.toList_ofList, joined, Text.pieces_intercalate hcommas (by simp),
      List.map_map, List.map_congr_left htrimmed, List.map_id']
    exact List.filter_eq_self.2 fun y hy => decide_eq_true (h y hy).ne_empty

theorem isListable_of_mem_idsOf {s x : String} (h : x ∈ idsOf s) : IsListable x := by
  obtain ⟨hmem, hne⟩ := List.mem_filter.1 h
  obtain ⟨piece, hpiece, rfl⟩ := List.mem_map.1 hmem
  refine ⟨of_decide_eq_true hne, ?_, ?_⟩
  · rw [String.toList_ofList]
    exact fun hcomma => Text.not_mem_of_mem_pieces hpiece (Text.trimmed_subset piece hcomma)
  · rw [String.toList_ofList]
    exact Text.bare_trimmed piece

/-! ## Lists of ids -/

/-- Encoded ids one after the other, with a comma between any two of them, which is encoded or not. -/
inductive JoinedAs : List String → List Char → Prop
  | none : JoinedAs [] []
  | one (x : String) : JoinedAs [x] (encode x)
  | more (x : String) {y : String} {rest : List String} {comma cs : List Char}
      (hcomma : comma = [','] ∨ comma = encode ",") (hrest : JoinedAs (y :: rest) cs) :
      JoinedAs (x :: y :: rest) (encode x ++ comma ++ cs)

theorem decodedBytes_comma {comma : List Char} (h : comma = [','] ∨ comma = encode ",")
    (rest : List Char) :
    decodedBytes (comma ++ rest) = String.utf8EncodeChar ',' ++ decodedBytes rest := by
  rcases h with rfl | rfl
  · exact decodedBytes_plain (by decide) (by decide) rest
  · exact decodedBytes_encode_append "," rest

theorem JoinedAs.decodedBytes_eq {ids : List String} {cs : List Char} (h : JoinedAs ids cs) :
    decodedBytes cs = (joined ids).flatMap String.utf8EncodeChar := by
  induction h with
  | none => rfl
  | one x => simp [decodedBytes_encode, joined, Text.bytes]
  | more x hcomma hrest ih =>
    rw [List.append_assoc, decodedBytes_encode_append, decodedBytes_comma hcomma, ih,
      joined_cons_cons, List.flatMap_append, List.flatMap_cons]
    rfl

theorem JoinedAs.decode_eq {ids : List String} {cs : List Char} (h : JoinedAs ids cs) :
    decode cs = String.ofList (joined ids) := by
  have hbytes : (joined ids).flatMap String.utf8EncodeChar =
      Text.bytes (String.ofList (joined ids)) := by
    rw [Text.bytes, String.toList_ofList]
  rw [decode, h.decodedBytes_eq, hbytes, Text.ofBytesLossy_bytes]

theorem JoinedAs.not_mem {ids : List String} {cs : List Char} (h : JoinedAs ids cs) {c : Char}
    (hencoded : ∀ s, c ∉ encode s) (hcomma : c ≠ ',') : c ∉ cs := by
  induction h with
  | none => exact List.not_mem_nil
  | one x => exact hencoded x
  | @more x _ _ comma _ hcommas _ ih =>
    have hnot : c ∉ comma := by
      rcases hcommas with rfl | rfl
      · exact fun hc => hcomma (List.mem_singleton.1 hc)
      · exact hencoded ","
    simp [hencoded x, hnot, ih]

/-- Encoded with everything between them, the ids have encoded commas. -/
theorem joinedAs_encode (ids : List String) :
    JoinedAs ids (encode (String.ofList (joined ids))) := by
  induction ids with
  | nil => exact .none
  | cons x rest ih =>
    cases rest with
    | nil => simpa [joined] using JoinedAs.one x
    | cons y rest =>
      have hencode : encode (String.ofList (joined (x :: y :: rest))) =
          encode x ++ encode "," ++ encode (String.ofList (joined (y :: rest))) := by
        simp [encode, joined_cons_cons]
      rw [hencode]
      exact .more x (.inr rfl) ih

/-! ## Queries -/

/-- A query in which the ids are listed as `variants`, with some parameters before them and some
after them, and with a question mark in front or without. -/
def ListsAmong (search : String) (before : List (String × String)) (ids : List String)
    (after : List (String × String)) : Prop :=
  ∃ mark cs, (mark = [] ∨ mark = ['?']) ∧ JoinedAs ids cs ∧ search.toList =
    mark ++ writeEncoded (before.map encodeValue ++ (variantsName, cs) :: after.map encodeValue)

theorem ListsAmong.find?_eq {search : String} {before after : List (String × String)}
    {ids : List String} (h : ListsAmong search before ids after)
    (hbefore : ∀ p ∈ before, p.1 ≠ variantsName) :
    find? search variantsName = some (String.ofList (joined ids)) := by
  obtain ⟨mark, cs, hmark, hjoined, hsearch⟩ := h
  have hnone : ∀ c, (∀ s, c ∉ encode s) → c ≠ ',' →
      ∀ p ∈ before.map encodeValue ++ (variantsName, cs) :: after.map encodeValue, c ∉ p.2 := by
    intro c hencoded hcomma p hp
    simp only [List.mem_append, List.mem_cons, List.mem_map] at hp
    rcases hp with ⟨q, -, rfl⟩ | rfl | ⟨q, -, rfl⟩
    · exact hencoded q.2
    · exact hjoined.not_mem hencoded hcomma
    · exact hencoded q.2
  have hskip : ∀ p ∈ (before.map encodeValue).map fun p => (p.1, decode p.2),
      ¬decide (p.1 = variantsName) = true := by
    intro p hp
    obtain ⟨q, hq, rfl⟩ := List.mem_map.1 hp
    obtain ⟨r, hr, rfl⟩ := List.mem_map.1 hq
    exact fun hname => hbefore r hr (of_decide_eq_true hname)
  rw [find?, hsearch, query_writeEncoded hmark (hnone '?' question_not_mem_encode (by decide)),
    parameters_writeEncoded (hnone '&' ampersand_not_mem_encode (by decide)), List.map_append,
    List.find?_append, List.find?_eq_none.2 hskip, List.map_cons, Option.none_or,
    List.find?_cons_of_pos (by simp), Option.map_some, hjoined.decode_eq]

/-- A query that is written with the ids as one value lists them. -/
theorem listsAmong_write (before : List (String × String)) (ids : List String)
    (after : List (String × String)) :
    ListsAmong (String.ofList (write (before ++
      (variantsName, String.ofList (joined ids)) :: after))) before ids after := by
  refine ⟨[], _, .inl rfl, joinedAs_encode ids, ?_⟩
  rw [String.toList_ofList, write_eq_writeEncoded, List.map_append, List.map_cons]
  rfl

/-- Reading undoes writing: the query in which ids are listed requests these ids and no others,
whatever other parameters come before them and whatever comes after them. And whatever a query is,
the ids that it requests are ones that can be listed. -/
theorem requested_undoes_writing :
    (∀ (search : String) (before : List (String × String)) (ids : List String)
      (after : List (String × String)), (∀ p ∈ before, p.1 ≠ variantsName) →
      (∀ x ∈ ids, IsListable x) → ListsAmong search before ids after →
      (requested (some search)).Pairwise (· < ·) ∧
      ∀ x, x ∈ requested (some search) ↔ x ∈ ids) ∧
    ∀ search, ∀ x ∈ requested search, IsListable x ∧ Text.trim x = x := by
  constructor
  · intro search before ids after hbefore hids hlists
    have hfind : (some search).bind (fun s => find? s variantsName) =
        some (String.ofList (joined ids)) := hlists.find?_eq hbefore
    have hrequested : requested (some search) = Text.setOf ids := by
      simp only [requested, hfind, idsOf_joined hids]
    rw [hrequested]
    exact ⟨Text.pairwise_setOf ids, fun x => Text.mem_setOf x ids⟩
  · intro search x hx
    unfold requested at hx
    split at hx
    · have hlistable := isListable_of_mem_idsOf ((Text.mem_setOf x _).1 hx)
      exact ⟨hlistable, hlistable.bare.trim_eq⟩
    · exact absurd hx List.not_mem_nil

def otherParameters : List (String × String) := [("q", "a&b=c"), ("", ""), ("Variants", "no")]

def signedIds : List String := ["new nav", "50%+é", "a=b&c?"]

/-- One comma is left as it is and one is encoded. -/
def signedSearch : String :=
  "?q=a%26b%3Dc&=&Variants=no&variants=new+nav,50%25%2B%C3%A9%2Ca%3Db%26c%3F&variants=other"

theorem requested_undoes_writing_signed :
    ListsAmong signedSearch otherParameters signedIds [("variants", "other")] ∧
    requested (some signedSearch) = ["50%+é", "a=b&c?", "new nav"] ∧
    (∀ x, x ∈ requested (some signedSearch) ↔ x ∈ signedIds) ∧
    ∀ x, x ∈ requested (some (String.ofList (write (otherParameters ++
      [(variantsName, String.ofList (joined signedIds))])))) ↔ x ∈ signedIds := by
  have hbefore : ∀ p ∈ otherParameters, p.1 ≠ variantsName := by decide
  have hids : ∀ x ∈ signedIds, IsListable x := by decide
  have hlists : ListsAmong signedSearch otherParameters signedIds [("variants", "other")] :=
    ⟨['?'], _, .inr rfl, .more _ (.inl rfl) (.more _ (.inr rfl) (.one _)), by decide +kernel⟩
  obtain ⟨-, hmem⟩ := requested_undoes_writing.1 _ _ _ _ hbefore hids hlists
  obtain ⟨-, hmem'⟩ := requested_undoes_writing.1 _ _ _ _ hbefore hids
    (listsAmong_write otherParameters signedIds [])
  exact ⟨hlists, by decide +kernel, hmem, hmem'⟩

end Rollout.Url
