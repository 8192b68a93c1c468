import Rollout.Json.Printer
import Rollout.Text.Quoted

/-! The faults of a configuration, of a condition and of a registration. Each cause has its text in
one place and belongs to a topic, which stands before the text. -/
namespace Rollout
set_option autoImplicit false

/-! ## Causes -/

/-- What a field of a condition has to be. -/
inductive FieldShape where
  | texts
  | number
  | natural
  deriving DecidableEq, Repr

def FieldShape.describe : FieldShape → String
  | texts => "a non-empty list of strings"
  | number => "a number"
  | natural => "a non-negative integer"

inductive Topic where
  | config
  | variant
  | missingTag
  | tagForm
  | unknownTag
  | condition
  | operator
  | registration
  deriving DecidableEq, Repr

/-- The cause of a fault. A custom kind may refuse a condition with a fault of any topic, in words of
its own. -/
inductive ConfigError where
  | notAList
  | missingId
  | missingConditions (id : String)
  | missingMods (id : String)
  | modNotText (id key : String)
  | missingTag
  | tagNotText (found : Document)
  | unknownTag (tag : String) (known : List String)
  | badField (tag field : String) (shape : FieldShape)
  | rangeOutside (tag : String)
  | rangeEmpty (tag : String)
  | chanceOutside
  | refused (topic : Topic) (reason : String)
  | badOperator (found : Document)
  | blankTag

/-! ## Texts -/

def Topic.title : Topic → String
  | config => "Invalid variants config"
  | variant => "Invalid variant"
  | missingTag => "Missing condition type"
  | tagForm => "Invalid condition type"
  | unknownTag => "Unknown condition type"
  | condition => "Invalid condition"
  | operator => "Invalid conditional operator"
  | registration => "Invalid condition registration"

namespace ConfigError

def topic : ConfigError → Topic
  | notAList => .config
  | missingId => .variant
  | missingConditions _ => .variant
  | missingMods _ => .variant
  | modNotText _ _ => .variant
  | missingTag => .missingTag
  | tagNotText _ => .tagForm
  | unknownTag _ _ => .unknownTag
  | badField _ _ _ => .condition
  | rangeOutside _ => .condition
  | rangeEmpty _ => .condition
  | chanceOutside => .condition
  | refused topic _ => topic
  | badOperator _ => .operator
  | blankTag => .registration

def detail : ConfigError → String
  | notAList => "variants should be a list"
  | missingId => "Every variant must have a string id"
  | missingConditions id => "Variant '" ++ id ++ "' must have a non-empty list of conditions"
  | missingMods id => "Variant '" ++ id ++ "' must have mods"
  | modNotText id key =>
    "Variant '" ++ id ++ "' mod '" ++ key ++ "' must name its replacement as a string"
  | missingTag => "Every condition must have a type"
  | tagNotText found => "Condition type must be a string, got " ++ Json.compact found
  | unknownTag tag known => "'" ++ tag ++ "'. Available: " ++ Text.quoteList known
  | badField tag field shape => tag ++ " requires " ++ field ++ " to be " ++ shape.describe
  | rangeOutside tag => tag ++ " requires a range between 0 and 100"
  | rangeEmpty tag => tag ++ " cannot have from >= to"
  | chanceOutside => "RANDOM requires value to be a number between 0 and 1"
  | refused _ reason => reason
  | badOperator found => "conditionalOperator should be AND or OR, got " ++ Json.compact found
  | blankTag => "condition type tag must not be empty"

def message (e : ConfigError) : String := e.topic.title ++ ": " ++ e.detail

end ConfigError

end Rollout
