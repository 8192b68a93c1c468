import Rollout.Context
import Rollout.Mismatch

/-! Contexts as documents. A context is written as an object with three members. It is read from
an object, where other members are ignored, or from a list that holds the three values in order;
what is null or not there is absent, and the first mismatch is reported. -/
namespace Rollout
set_option autoImplicit false

namespace Context

/-! ## Parts -/

def readText (d : Document) : Except Mismatch String :=
  match d with
  | .text s => .ok s
  | found => .error (.form found .text)

def readTexts (d : Document) : Except Mismatch (List String) :=
  match d with
  | .list items => items.mapM readText
  | found => .error (.form found .texts)

/-- Null reads as absent. -/
def readOption {α : Type} (read : Document → Except Mismatch α) (d : Document) :
    Except Mismatch (Option α) :=
  match d with
  | .null => .ok none
  | found => (read found).map some

/-- Sets the field with a name; other names are ignored. -/
def readField (c : Context) (name : String) (d : Document) : Except Mismatch Context :=
  if name = "username" then (readOption readText d).map fun v => { c with username := v }
  else if name = "groups" then (readOption readTexts d).map fun v => { c with groups := v }
  else if name = "search" then (readOption readText d).map fun v => { c with search := v }
  else .ok c

def readFields (c : Context) (es : List (String × Document)) : Except Mismatch Context :=
  es.foldlM (fun c e => readField c e.1 e.2) c

/-! ## Whole contexts -/

def ofDocument : Document → Except Mismatch Context
  | .object members => readFields empty members
  | .list items => do
    let c ← readFields empty (fieldNames.zip items)
    if items.length ≤ fieldNames.length then return c else throw (.tooLong items.length)
  | found => .error (.form found .context)

def optionDocument {α : Type} (write : α → Document) : Option α → Document
  | some v => write v
  | none => .null

/-- The document of a context; a hash of its own is not written. -/
def toDocument (c : Context) : Document :=
  .object [("username", optionDocument .text c.username),
    ("groups", optionDocument (fun groups => .list (groups.map .text)) c.groups),
    ("search", optionDocument .text c.search)]

end Context

end Rollout
