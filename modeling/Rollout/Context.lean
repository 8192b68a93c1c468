import Rollout.Bucket
import Rollout.Text.Quoted

/-! The context of a resolution: what the caller knows of the current request. Empty values count
as absent, so everything but descriptions goes through `user?`, `memberships` and `query?`. -/
namespace Rollout
set_option autoImplicit false

structure Context where
  username : Option String
  groups : Option (List String)
  search : Option String
  hash : Option (String → Int64)

namespace Context

def empty : Context := ⟨none, none, none, none⟩

/-- A text that is there and not empty. -/
def present (s : Option String) : Option String := s.filter (· ≠ "")

def user? (c : Context) : Option String := present c.username

def memberships (c : Context) : List String := c.groups.getD []

def query? (c : Context) : Option String := present c.search

/-- The names of the fields that are written, in the order of a list that holds them. -/
def fieldNames : List String := ["username", "groups", "search"]

/-- The bucket of a name: by the hash of the context if it brings one. -/
def bucket (c : Context) (name : String) : Int64 :=
  match c.hash with
  | some f => f name
  | none => Bucket.ofName name

/-! ## Descriptions -/

def describeOption (describe : String → String) : Option String → String
  | some s => "Some(" ++ describe s ++ ")"
  | none => "None"

def describeBool (b : Bool) : String := if b then "true" else "false"

def describe (c : Context) : String :=
  "EvaluationContext \x7b username: " ++ describeOption Text.quote c.username ++
    ", groups: " ++ describeOption id (c.groups.map Text.quoteList) ++
    ", search: " ++ describeOption Text.quote c.search ++
    ", custom_hash: " ++ describeBool c.hash.isSome ++ " \x7d"

end Context

end Rollout
