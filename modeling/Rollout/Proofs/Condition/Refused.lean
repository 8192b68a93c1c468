import Rollout.Proofs.Fault.First
import Rollout.Proofs.Registry.Reachable

/-! # Why a condition is refused

The fields of a condition are all that a built-in kind finds fault with. So a registry of these kinds
refuses a condition with a tag for one of two reasons: nobody knows the tag, or the condition is
invalid. -/
namespace Rollout
set_option autoImplicit false

/-! ## Fields -/

namespace Field

variable {spec : Document} {field tag : String} {fault : ConfigError}

theorem topic_of_texts (h : texts spec field tag = .error fault) : fault.topic = .condition := by
  unfold texts at h
  split at h
  · split at h
    · cases h
    · cases h
      rfl
  · cases h
    rfl

theorem topic_of_number (h : number spec field tag = .error fault) : fault.topic = .condition := by
  unfold number at h
  split at h
  · cases h
  · cases h
    rfl

theorem topic_of_natural (h : natural spec field tag = .error fault) :
    fault.topic = .condition := by
  unfold natural at h
  split at h
  · cases h
  · cases h
    rfl

theorem topic_of_rangeOf {lower upper : Binary64} (h : rangeOf lower upper tag = .error fault) :
    fault.topic = .condition := by
  unfold rangeOf at h
  split at h
  · split at h
    · cases h
    · cases h
      rfl
  · cases h
    rfl

theorem topic_of_percentRange (h : percentRange spec tag = .error fault) :
    fault.topic = .condition := by
  obtain hlower | ⟨lower, -, h⟩ := Fault.bind_eq_error_iff.1 h
  · exact topic_of_number hlower
  obtain hupper | ⟨upper, -, hrange⟩ := Fault.bind_eq_error_iff.1 h
  · exact topic_of_number hupper
  · exact topic_of_rangeOf hrange

theorem topic_of_chance (h : chance spec tag = .error fault) : fault.topic = .condition := by
  obtain hnumber | ⟨x, -, h⟩ := Fault.bind_eq_error_iff.1 h
  · exact topic_of_number hnumber
  · split at h
    · cases h
    · cases h
      rfl

end Field

/-! ## Kinds -/

namespace Registry

variable {G : Type}

theorem topic_of_build {k : Kind G} (hk : k ∈ (builtin : Registry G).kinds) {spec : Document}
    {fault : ConfigError} (h : k.build spec = .error fault) : fault.topic = .condition := by
  rw [kinds_builtin] at hk
  simp only [List.mem_cons, List.not_mem_nil, or_false] at hk
  rcases hk with rfl | rfl | rfl | rfl | rfl | rfl | rfl | rfl
  · cases h
  · exact Field.topic_of_natural (Fault.map_eq_error_iff.1 h)
  · exact Field.topic_of_texts (Fault.map_eq_error_iff.1 h)
  · cases h
  · exact Field.topic_of_chance (Fault.map_eq_error_iff.1 h)
  · exact Field.topic_of_percentRange (Fault.map_eq_error_iff.1 h)
  · exact Field.topic_of_percentRange (Fault.map_eq_error_iff.1 h)
  · exact Field.topic_of_texts (Fault.map_eq_error_iff.1 h)

theorem topic_of_instantiate {spec : Document} {tag : String}
    (htag : spec.member? "type" = some (.text tag)) {fault : ConfigError}
    (h : (builtin : Registry G).instantiate spec = .error fault) :
    fault.topic = .unknownTag ∨ fault.topic = .condition := by
  obtain ⟨-, rfl⟩ | ⟨k, hk, hbuild⟩ := (instantiate_eq_error_iff htag).1 h
  · exact .inl rfl
  · exact .inr (topic_of_build (find?_eq_some hk).1 hbuild)

end Registry

end Rollout
