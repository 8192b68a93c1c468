import Rollout.Text.Quoted
import Rollout.Trial

/-! The journal: notes as events with a level, a message and named fields, and as lines that show
the answers of custom conditions. -/
namespace Rollout
set_option autoImplicit false

inductive Level where
  | trace
  | debug
  | warn
  deriving DecidableEq, Repr

def Level.name : Level → String
  | trace => "TRACE"
  | debug => "DEBUG"
  | warn => "WARN"

/-- An event; its fields are texts. -/
structure Event where
  level : Level
  message : String
  fields : List (String × String)
  deriving DecidableEq, Repr

def Activation.name : Activation → String
  | forced => "UrlOverride"
  | conditions => "Conditions"
  | inactive => "Inactive"

namespace Note

def showBool (b : Bool) : String := if b then "true" else "false"

/-- The event of a note; the answer of a custom condition is none of its own. -/
def event? : Note → Option Event
  | replaced tag => some ⟨.warn, "Replaced existing condition type", [("condition_type", tag)]⟩
  | answered _ _ => none
  | noService => some ⟨.trace, "No experiment API attached", []⟩
  | tested tag holds =>
    some ⟨.trace, "Condition tested", [("condition_type", tag), ("holds", showBool holds)]⟩
  | requested ids => some ⟨.debug, "Variants requested by URL", [("ids", Text.quoteSet ids)]⟩
  | active id reason =>
    some ⟨.debug, "Variant active", [("variant", id), ("reason", reason.name)]⟩
  | resolved ons mods =>
    some ⟨.debug, "Variants resolved", [("active", toString ons), ("mods", toString mods)]⟩

/-- The line for the answer of a custom condition. -/
def line? : Note → Option String
  | answered tag holds => some (tag ++ "=" ++ showBool holds)
  | _ => none

end Note

def events (notes : List Note) : List Event := notes.filterMap Note.event?

def answers (notes : List Note) : List String := notes.filterMap Note.line?

end Rollout
