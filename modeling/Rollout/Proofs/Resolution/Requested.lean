import Rollout.Proofs.Resolution.Run
import Rollout.Proofs.Text.Trimmed
import Rollout.Proofs.Url.Written
import Rollout.Proofs.Variant.Parsed

/-! # Entries that the URL asks for

The query that lists one id requests that id without the blanks at its ends. So an entry that lets
the URL force it on is forced by the query that lists its id if the id has no such blanks, and by no
query that lists the id if it has some. -/
namespace Rollout
set_option autoImplicit false

/-! ## Requested ids -/

namespace Url

theorem find?_write_singleton {search : String} {mark : List Char}
    (hmark : mark = [] ∨ mark = ['?']) {name value : String}
    (hsearch : search.toList = mark ++ write [(name, value)]) : find? search name = some value := by
  rw [find?, hsearch, query_write hmark, parameters_write]
  simp

/-- Without a comma there is one id, which is none if it is blank throughout. -/
theorem idsOf_of_not_mem {s : String} (hcomma : ',' ∉ s.toList) :
    idsOf s = if Text.trim s = "" then [] else [Text.trim s] := by
  rw [idsOf, Text.pieces_eq_splitOn, List.splitOn_eq_singleton hcomma, List.map_singleton]
  show [Text.trim s].filter (· ≠ "") = _
  by_cases h : Text.trim s = "" <;> simp [h]

theorem mem_requested_iff {search id : String} {mark : List Char}
    (hmark : mark = [] ∨ mark = ['?'])
    (hsearch : search.toList = mark ++ write [(variantsName, id)]) (hne : id ≠ "")
    (hcomma : ',' ∉ id.toList) : id ∈ requested (some search) ↔ Text.trim id = id := by
  have hfind : (some search).bind (fun s => find? s variantsName) = some id :=
    find?_write_singleton hmark hsearch
  rw [requested, hfind, Text.mem_setOf, idsOf_of_not_mem hcomma]
  split
  · rename_i htrim
    rw [htrim]
    exact iff_of_false List.not_mem_nil (Ne.symm hne)
  · rw [List.mem_singleton, eq_comm]

/-- The query string that lists one id, with a question mark in front or without. -/
def Lists (search id : String) : Prop :=
  search = "variants=" ++ String.ofList (encode id) ∨
    search = "?variants=" ++ String.ofList (encode id)

theorem Lists.exists_mark {search id : String} (h : Lists search id) :
    ∃ mark, (mark = [] ∨ mark = ['?']) ∧ search.toList = mark ++ write [(variantsName, id)] := by
  have hname : encode variantsName = "variants".toList := by decide
  rw [write_singleton, hname]
  rcases h with rfl | rfl
  · exact ⟨[], .inl rfl, by simp⟩
  · exact ⟨['?'], .inr rfl, by simp⟩

theorem Lists.query? {search id : String} (h : Lists search id) (ctx : Context) :
    { ctx with search := some search }.query? = some search := by
  have hne : search ≠ "" := by
    rcases h with rfl | rfl <;> simp
  simp [Context.query?, Context.present, hne]

end Url

/-! ## Every entry -/

variable {G : Type} [RandomSource G]

theorem Variant.value_eq_forced_iff {requested : List String} {ctx : Context} {v : Variant G}
    {s : Scope G} {t : Run G Activation} (h : v.activation requested ctx s = some t) :
    t.value = .forced ↔ v.forcible = true ∧ v.id ∈ requested := by
  obtain ⟨hforced, hother⟩ := activation_cases h
  by_cases hv : v.forcible = true ∧ v.id ∈ requested
  · exact iff_of_true (hforced hv) hv
  · refine iff_of_false ?_ hv
    rcases hother hv with hvalue | hvalue <;> rw [hvalue] <;> decide

/-- An entry that opts in and whose id is not empty and holds no comma is forced on by the query
that lists its id exactly if the id has no blanks at its ends, whatever the engine, the rest of the
configuration and the scope; and a resolution is missing only where a test that it makes has no
answer. -/
theorem resolveIn_requested {e : Engine G} {entries : List Document} {vs : List (Variant G)}
    (h : e.parse (.list entries) = .ok vs) {i : ℕ} {entry : Document} {id : String}
    (hentry : entries[i]? = some entry) (hid : entry.member? "id" = some (.text id))
    (hforcible : entry.member? "allowUrlOverrides" = some (.boolean true)) (hne : id ≠ "")
    (hcomma : ',' ∉ id.toList) {ctx : Context} {search : String} (hlists : Url.Lists search id)
    (hsearch : ctx.search = some search) (s : Scope G) :
    (∀ run, e.resolveIn (.list entries) ctx s = some run → ∃ r o, run.value = .ok r ∧
      r.outcomes[i]? = some o ∧ (o.activation = .forced ↔ Text.trim id = id)) ∧
    ((∀ c ∈ vs.flatMap Variant.conditions, ∀ s', Reaches ctx (vs.flatMap Variant.conditions)
      (s.inherit e.service) s' → (c.test ctx s').isSome) →
        (e.resolveIn (.list entries) ctx s).isSome) := by
  refine ⟨fun run hrun => ?_, Engine.resolveIn_isSome h⟩
  obtain ⟨u, hu, rfl⟩ := (Engine.resolveIn_eq_some_iff h).1 hrun
  obtain ⟨_, hlist, hparsed⟩ := Variant.parseAll_eq_ok_iff.1 h
  cases hlist
  obtain ⟨v, hv, hparse⟩ := rel_of_getElem? hparsed hentry
  obtain ⟨a, ha, s', t, -, ht, rfl, -⟩ := rel_of_getElem? (Variant.activations_forall₂ hu).1 hv
  have hread := Variant.readFrom_of_parse hparse
  obtain rfl : v.id = id := by
    have htext := hread.id.symm.trans hid
    cases htext
    rfl
  have hrequested : e.requested ctx = Url.requested (some search) := by
    have hquery := hlists.query? ctx
    have hctx : { ctx with search := some search } = ctx := by rw [← hsearch]
    rw [hctx] at hquery
    rw [Engine.requested, hquery]
  obtain ⟨mark, hmark, hwritten⟩ := hlists.exists_mark
  refine ⟨_, v.outcome t.value, rfl, ?_, ?_⟩
  · rw [Engine.resolution, List.getElem?_zipWith, hv, ha]
  · show t.value = .forced ↔ _
    rw [Variant.value_eq_forced_iff ht, hrequested,
      Url.mem_requested_iff hmark hwritten hne hcomma, hread.forcible]
    exact and_iff_right hforcible

/-- An entry that lets the URL force it on and is not active otherwise. -/
def hiddenEntry (id : String) : Document := .object [("id", .text id),
  ("conditions", .list [.object [("type", .text "NEVER")]]),
  ("mods", .object [("page", .text "newPage")]), ("allowUrlOverrides", .boolean true)]

/-- An id with signs that mean something in a query, and blanks inside. -/
def signs : String := "a&b=c +%2c?é😀"

def signsSearch : String := "?variants=" ++ String.ofList (Url.encode signs)

def signsContext : Context := { Context.empty with search := some signsSearch }

def hiddenPair : Document := .list [hiddenEntry "other", hiddenEntry signs]

theorem resolveIn_requested_signs :
    Url.Lists signsSearch signs ∧ signs ≠ "" ∧ ',' ∉ signs.toList ∧
    ∃ run r o, Engine.standard.resolveIn hiddenPair signsContext
        (Scope.fresh (Generator.seeded 0)) = some run ∧
      run.value = .ok r ∧ r.outcomes[1]? = some o ∧ o.activation = .forced := by
  have hlists : Url.Lists signsSearch signs := .inr rfl
  have hne : signs ≠ "" := by decide
  have hcomma : ',' ∉ signs.toList := by decide
  have hparse : (Engine.standard : Engine Generator).parse hiddenPair = .ok _ := rfl
  have hsearch : signsContext.search = some signsSearch := rfl
  obtain ⟨hall, -⟩ := resolveIn_requested hparse (i := 1) rfl rfl rfl hne hcomma hlists hsearch
    (Scope.fresh (Generator.seeded 0))
  have hsome : (Engine.standard.resolveIn hiddenPair signsContext
      (Scope.fresh (Generator.seeded 0))).isSome := by
    decide +kernel
  obtain ⟨run, hrun⟩ := Option.isSome_iff_exists.1 hsome
  obtain ⟨r, o, hr, ho, hforced⟩ := hall run hrun
  have htrim : Text.trim signs = signs := by decide
  exact ⟨hlists, hne, hcomma, run, r, o, hrun, hr, ho, hforced.2 htrim⟩

/-- The blank at the beginning of an id is not part of what is requested. -/
theorem blankId_not_forced :
    (hiddenEntry " a").member? "id" = some (.text " a") ∧
    (hiddenEntry " a").member? "allowUrlOverrides" = some (.boolean true) ∧
    " a" ≠ "" ∧ ',' ∉ " a".toList ∧ Url.Lists "variants=+a" " a" ∧
    ∃ run r, Engine.standard.resolveIn (.list [hiddenEntry " a"])
        { Context.empty with search := some "variants=+a" } (Scope.fresh (Generator.seeded 0)) =
          some run ∧
      run.value = .ok r ∧ r.outcomes = [⟨" a", .inactive⟩] :=
  ⟨rfl, rfl, by decide, by decide, .inl (by decide), _, _, rfl, rfl, by decide +kernel⟩

end Rollout
