import Mathlib.Data.List.Nodup
import Rollout.Condition.Registry

/-! # Registries and what they build from

A registry that anyone can have made starts empty or with the built-in kinds and has taken some
registrations, of which those with a blank tag were refused. So no kind in it has a blank tag. -/
namespace Rollout.Registry
set_option autoImplicit false

variable {G : Type}

/-! ## Registrations -/

/-- The registry after some registrations; a refused one changes nothing. -/
def after (r : Registry G) (ks : List (Kind G)) : Registry G :=
  ks.foldl (fun r k => match r.register k with
    | .ok (r', _) => r'
    | .error _ => r) r

def Reachable (r : Registry G) : Prop := ∃ ks, r = empty.after ks ∨ r = builtin.after ks

theorem mem_place {x k : Kind G} {ks : List (Kind G)} (h : x ∈ place k ks) : x = k ∨ x ∈ ks := by
  induction ks with
  | nil => exact .inl (List.mem_singleton.1 h)
  | cons y rest ih =>
    unfold place at h
    split at h
    · exact List.mem_cons.1 h
    · split at h
      · rcases List.mem_cons.1 h with hx | hx
        · exact .inl hx
        · exact .inr (List.mem_cons_of_mem y hx)
      · rcases List.mem_cons.1 h with rfl | hx
        · exact .inr List.mem_cons_self
        · exact (ih hx).imp_right (List.mem_cons_of_mem y)

/-- A registration is refused for a blank tag and puts the kind at its place otherwise. -/
theorem register_cases (r : Registry G) (k : Kind G) :
    (Text.allBlank k.tag = true ∧ r.register k = .error .blankTag) ∨
    (Text.allBlank k.tag = false ∧ ∃ notes, r.register k = .ok (⟨place k r.kinds⟩, notes)) := by
  unfold register
  cases h : Text.allBlank k.tag with
  | true => exact .inl ⟨rfl, rfl⟩
  | false => exact .inr ⟨rfl, _, rfl⟩

/-! ## Tags -/

def NoneBlank (r : Registry G) : Prop := ∀ k ∈ r.kinds, Text.allBlank k.tag = false

theorem noneBlank_after {r : Registry G} (h : r.NoneBlank) (ks : List (Kind G)) :
    (r.after ks).NoneBlank := by
  induction ks generalizing r with
  | nil => exact h
  | cons k rest ih =>
    rcases register_cases r k with ⟨-, hr⟩ | ⟨hk, notes, hr⟩
    · have hsame : r.after (k :: rest) = r.after rest := by
        rw [after, List.foldl_cons, hr]
        rfl
      rw [hsame]
      exact ih h
    · have hnew : r.after (k :: rest) = after ⟨place k r.kinds⟩ rest := by
        rw [after, List.foldl_cons, hr]
        rfl
      rw [hnew]
      refine ih fun x hx => ?_
      rcases mem_place hx with rfl | hx
      · exact hk
      · exact h x hx

theorem kinds_builtin : (builtin : Registry G).kinds = [Kind.always, Kind.experiment, Kind.groups,
    Kind.never, Kind.random, Kind.randomMod, Kind.usernameMod, Kind.users] := by
  simp [builtin, place, Text.before, Text.charsBefore, Kind.always, Kind.never, Kind.users,
    Kind.groups, Kind.random, Kind.randomMod, Kind.usernameMod, Kind.experiment]

theorem tags_builtin : (builtin : Registry G).tags = ["ALWAYS", "GOOGLE_EXPERIMENTS", "GROUPS",
    "NEVER", "RANDOM", "RANDOM_MOD", "USERNAME_MOD", "USERS"] := by
  rw [tags, kinds_builtin]
  rfl

theorem eq_of_tag_eq {k k' : Kind G} (hk : k ∈ (builtin : Registry G).kinds)
    (hk' : k' ∈ (builtin : Registry G).kinds) (h : k.tag = k'.tag) : k = k' := by
  have hnodup : (builtin : Registry G).tags.Nodup := by
    rw [tags_builtin]
    decide
  exact List.inj_on_of_nodup_map hnodup hk hk' h

theorem noneBlank_builtin : (builtin : Registry G).NoneBlank := by
  have h : ∀ tag ∈ (builtin : Registry G).tags, Text.allBlank tag = false := by
    rw [tags_builtin]
    decide
  exact fun k hk => h k.tag (List.mem_map_of_mem hk)

theorem Reachable.noneBlank {r : Registry G} (h : r.Reachable) : r.NoneBlank := by
  obtain ⟨ks, rfl | rfl⟩ := h
  · exact noneBlank_after (fun k hk => absurd hk List.not_mem_nil) ks
  · exact noneBlank_after noneBlank_builtin ks

/-! ## Building a condition -/

theorem find?_eq_some {r : Registry G} {tag : String} {k : Kind G} (h : r.find? tag = some k) :
    k ∈ r.kinds ∧ k.tag = tag := by
  have htag := List.find?_some h
  exact ⟨List.mem_of_find?_eq_some h, of_decide_eq_true htag⟩

theorem instantiate_of_tag (r : Registry G) {spec : Document} {tag : String}
    (h : spec.member? "type" = some (.text tag)) : r.instantiate spec =
      match r.find? tag with
      | some k => k.build spec
      | none => .error (.unknownTag tag r.tags) := by
  cases hk : r.find? tag <;> simp [instantiate, h, hk]

theorem instantiate_eq_ok_iff {r : Registry G} {spec : Document} {c : Condition G} :
    r.instantiate spec = .ok c ↔ ∃ tag k, spec.member? "type" = some (.text tag) ∧
      r.find? tag = some k ∧ k.build spec = .ok c := by
  constructor
  · intro h
    unfold instantiate at h
    split at h
    · cases h
    · cases h
    · rename_i tag htag
      split at h
      · rename_i k hk
        exact ⟨tag, k, htag, hk, h⟩
      · cases h
    · cases h
  · rintro ⟨tag, k, htag, hk, hc⟩
    rw [instantiate_of_tag r htag, hk]
    exact hc

/-- What the registry makes of a condition with a tag, when it does not build it. -/
theorem instantiate_eq_error_iff {r : Registry G} {spec : Document} {tag : String}
    {fault : ConfigError} (h : spec.member? "type" = some (.text tag)) :
    r.instantiate spec = .error fault ↔
      (r.find? tag = none ∧ fault = .unknownTag tag r.tags) ∨
      (∃ k, r.find? tag = some k ∧ k.build spec = .error fault) := by
  rw [instantiate_of_tag r h]
  cases r.find? tag with
  | none => simp [eq_comm]
  | some k => simp

end Rollout.Registry
