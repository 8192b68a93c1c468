import Rollout.Proofs.Condition.Percent
import Rollout.Proofs.Resolution.Run
import Rollout.Proofs.Variant.Parsed

/-! # Resolutions that fail

A configuration is checked to its end before anything is tested. So a resolution that fails does so
with the fault of the first entry that does not pass, and leaves its scope to the next one
untouched. -/
namespace Rollout
set_option autoImplicit false

variable {G : Type}

/-- What follows a run that noted nothing and left the scope as it was goes on as from the start. -/
theorem Run.andThen_of_untouched {α β : Type} (a : α) (s : Scope G) (f : α → Trial G β) :
    Run.andThen ⟨a, s, []⟩ f = f a s := by
  have hnoting : (Run.noting [] : Run G β → Run G β) = id := rfl
  rw [andThen, hnoting, Option.map_id]
  rfl

/-- A configuration that is no list, or in which an entry does not pass, is answered with the fault
of the first entry that does not pass, whatever stands around it. No condition has been tested by
then, and the next resolution in the scope goes on as if there had been none before. -/
theorem resolveIn_fails_closed [RandomSource G] (e : Engine G) (config : Document) (ctx : Context)
    (s : Scope G) :
    (config.items? = none → e.resolveIn config ctx s = some ⟨.error .notAList, s, []⟩) ∧
    (∀ good bad rest fault, config = .list (good ++ bad :: rest) →
      (∀ entry ∈ good, ∃ v, Variant.parse e.registry entry = .ok v) →
      Variant.parse e.registry bad = .error fault →
      e.resolveIn config ctx s = some ⟨.error fault, s, []⟩) ∧
    (∀ run fault, e.resolveIn config ctx s = some run → run.value = .error fault →
      ((config.items? = none ∧ fault = .notAList) ∨
        ∃ good bad rest, config = .list (good ++ bad :: rest) ∧
          (∀ entry ∈ good, ∃ v, Variant.parse e.registry entry = .ok v) ∧
          Variant.parse e.registry bad = .error fault) ∧
      run.scope = s ∧ run.notes = [] ∧
      ∀ (e' : Engine G) (config' : Document) (ctx' : Context),
        run.andThen (fun _ => e'.resolveIn config' ctx') = e'.resolveIn config' ctx' s) := by
  refine ⟨fun hlist => ?_, fun good bad rest fault hconfig hgood hbad => ?_,
    fun run fault hrun hfault => ?_⟩
  · exact Engine.resolveIn_of_error (Variant.parseAll_eq_error_iff.2 (.inl ⟨hlist, rfl⟩)) ctx s
  · have hparse : e.parse config = .error fault :=
      Variant.parseAll_eq_error_iff.2 (.inr ⟨good, bad, rest, hconfig, hgood, hbad⟩)
    exact Engine.resolveIn_of_error hparse ctx s
  · rcases Engine.resolveIn_cases hrun with ⟨fault', hparse, rfl⟩ | ⟨vs, u, -, -, rfl⟩
    · cases hfault
      exact ⟨Variant.parseAll_eq_error_iff.1 hparse, rfl, rfl,
        fun e' config' ctx' => Run.andThen_of_untouched _ _ _⟩
    · cases hfault

def sampledEntry : Document := .object [("id", .text "sampled"),
  ("conditions", .list [.object [("type", .text "RANDOM_MOD"),
    ("from", .number (.percent 0)), ("to", .number (.percent 50))]]),
  ("mods", .object [("log", .text "sampledLog")])]

/-- An entry for the users of an empty list, which does not pass. -/
def nobodyEntry : Document := .object [("id", .text "nobody"),
  ("conditions", .list [.object [("type", .text "USERS"), ("values", .list [])]]),
  ("mods", .object [("page", .text "newPage")])]

theorem resolveIn_fails_closed_nobody :
    (∃ v, Variant.parse (Registry.builtin : Registry Generator) sampledEntry = .ok v) ∧
    Variant.parse (Registry.builtin : Registry Generator) nobodyEntry =
      .error (.badField "USERS" "values" .texts) ∧
    Engine.standard.resolveIn (.list ([sampledEntry] ++ nobodyEntry :: [.null])) Context.empty
      (Scope.fresh (Generator.seeded 3)) =
        some ⟨.error (.badField "USERS" "values" .texts), Scope.fresh (Generator.seeded 3), []⟩ ∧
    Run.andThen ⟨(.error (.badField "USERS" "values" .texts) : Except ConfigError Resolution),
        Scope.fresh (Generator.seeded 3), []⟩
      (fun _ => Engine.standard.resolveIn (.list [sampledEntry]) Context.empty) =
        Engine.standard.resolveIn (.list [sampledEntry]) Context.empty
          (Scope.fresh (Generator.seeded 3)) := by
  have hok : (Variant.parse (Registry.builtin : Registry Generator) sampledEntry).isOk = true := by
    decide +kernel
  have hgood := Fault.exists_of_isOk hok
  have hbad : Variant.parse (Registry.builtin : Registry Generator) nobodyEntry =
      .error (.badField "USERS" "values" .texts) := rfl
  obtain ⟨-, hfirst, hafter⟩ := resolveIn_fails_closed (Engine.standard : Engine Generator)
    (.list ([sampledEntry] ++ nobodyEntry :: [.null])) Context.empty
    (Scope.fresh (Generator.seeded 3))
  have hrun := hfirst [sampledEntry] nobodyEntry [.null] _ rfl
    (List.forall_mem_singleton.2 hgood) hbad
  exact ⟨hgood, hbad, hrun, (hafter _ _ hrun rfl).2.2.2 _ _ _⟩

end Rollout
