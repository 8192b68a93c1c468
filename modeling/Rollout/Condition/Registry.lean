import Rollout.Condition.Basic
import Rollout.Text.Ascending
import Rollout.Text.Blank

/-! Kinds of conditions and the registry that keeps them by tag. A kind registered last under a
tag is the one that counts, and a blank tag is refused. -/
namespace Rollout
set_option autoImplicit false

/-! ## Kinds -/

/-- A kind of conditions: its tag, what it does in words, and how one is built from its fields. -/
structure Kind (G : Type) where
  tag : String
  summary : String
  build : Document → Except ConfigError (Condition G)

namespace Kind

variable {G : Type}

def always : Kind G := ⟨"ALWAYS", "Always true", fun _ => .ok .always⟩

def never : Kind G := ⟨"NEVER", "Always false", fun _ => .ok .never⟩

def users : Kind G :=
  ⟨"USERS", "Current user is one of the listed usernames",
    fun spec => (Field.texts spec "values" "USERS").map .users⟩

def groups : Kind G :=
  ⟨"GROUPS", "Current user belongs to one of the listed groups",
    fun spec => (Field.texts spec "values" "GROUPS").map .groups⟩

def random : Kind G :=
  ⟨"RANDOM", "Fresh random draw below a probability",
    fun spec => (Field.chance spec "RANDOM").map .random⟩

def randomMod : Kind G :=
  ⟨"RANDOM_MOD", "Shared per-call random bucket within a range",
    fun spec => (Field.percentRange spec "RANDOM_MOD").map .randomMod⟩

def usernameMod : Kind G :=
  ⟨"USERNAME_MOD", "Username hash bucket within a range",
    fun spec => (Field.percentRange spec "USERNAME_MOD").map .usernameMod⟩

def experiment : Kind G :=
  ⟨"GOOGLE_EXPERIMENTS", "Variation chosen by the external experiment service",
    fun spec => (Field.natural spec "variation" "GOOGLE_EXPERIMENTS").map .experiment⟩

/-! ## Custom kinds -/

/-- What a kind is called that says nothing of itself. -/
def plainSummary : String := "Condition"

/-- A kind whose conditions take any fields and are tested by `ask`. -/
def asking (tag : String) (ask : Context → Trial G Bool) : Kind G :=
  ⟨tag, plainSummary, fun _ => .ok (.custom tag ask)⟩

/-- A kind whose conditions always give the same answer. -/
def constant (tag : String) (holds : Bool) : Kind G := asking tag fun _ => Trial.pure holds

/-- A kind whose conditions hold for the users whose name ends with a text. -/
def userSuffix (tag ending : String) : Kind G :=
  asking tag fun ctx => Trial.pure (ctx.user?.any fun name => name.endsWith ending)

/-- A kind whose conditions hold while the shared bucket is below a limit. -/
def bucketBelow [RandomSource G] (tag : String) (limit : Nat) : Kind G :=
  asking tag fun _ s => (Trial.bucket s).map (Run.map fun b => decide (b.val < limit))

/-- A kind of which no condition can be built. -/
def refusing (tag reason : String) : Kind G :=
  ⟨tag, plainSummary, fun _ => .error (.refused .condition reason)⟩

end Kind

/-! ## Registries -/

/-- Kinds in ascending order of their tags. -/
structure Registry (G : Type) where
  kinds : List (Kind G)

namespace Registry

variable {G : Type}

def empty : Registry G := ⟨[]⟩

/-- Puts a kind at its place, instead of the one with its tag. -/
def place (k : Kind G) : List (Kind G) → List (Kind G)
  | [] => [k]
  | x :: rest =>
    if Text.before k.tag x.tag then k :: x :: rest
    else if k.tag = x.tag then k :: rest
    else x :: place k rest

def builtin : Registry G :=
  ⟨[Kind.always, Kind.never, Kind.users, Kind.groups, Kind.random, Kind.randomMod,
    Kind.usernameMod, Kind.experiment].foldl (fun ks k => place k ks) []⟩

def tags (r : Registry G) : List String := r.kinds.map Kind.tag

def find? (r : Registry G) (tag : String) : Option (Kind G) :=
  r.kinds.find? fun k => k.tag = tag

/-- Registers a kind under its tag and notes whether it replaces one. -/
def register (r : Registry G) (k : Kind G) : Except ConfigError (Registry G × List Note) :=
  if Text.allBlank k.tag then .error .blankTag
  else .ok (⟨place k r.kinds⟩, if (r.find? k.tag).isSome then [.replaced k.tag] else [])

/-- Builds a condition by the kind that its member `type` names. -/
def instantiate (r : Registry G) (spec : Document) : Except ConfigError (Condition G) :=
  match spec.member? "type" with
  | none => .error .missingTag
  | some .null => .error .missingTag
  | some (.text tag) =>
    match r.find? tag with
    | some k => k.build spec
    | none => .error (.unknownTag tag r.tags)
  | some found => .error (.tagNotText found)

def describe (r : Registry G) : String :=
  "ConditionRegistry \x7b types: " ++ Text.quoteList r.tags ++ " \x7d"

end Registry

end Rollout
