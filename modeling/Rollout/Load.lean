import Rollout.Json.Reader
import Rollout.Schema.Config
import Rollout.Text.Pieces
import Rollout.Variant
import Rollout.Yaml.Reader

/-! Loading configurations from texts and files. The name of a file decides its format: `yaml` and
`yml` at its end mean YAML, everything else JSON. A configuration can also be checked as it is
loaded, first against the schema, with all violations reported, and then entry by entry. -/
namespace Rollout
set_option autoImplicit false

/-! ## Sources -/

/-- Why no text could be read. -/
inductive ReadFault where
  | missing
  | denied
  | insideFile
  | folder
  | longName
  | notText
  deriving DecidableEq, Repr

def ReadFault.message : ReadFault → String
  | missing => "No such file or directory (os error 2)"
  | denied => "Permission denied (os error 13)"
  | insideFile => "Not a directory (os error 20)"
  | folder => "Is a directory (os error 21)"
  | longName => "File name too long (os error 36)"
  | notText => "stream did not contain valid UTF-8"

/-- What is found under a path: the bytes of a file, or a fault. -/
abbrev Source := Except ReadFault (List UInt8)

def Source.text (s : Source) : Except ReadFault String :=
  match s with
  | .error fault => .error fault
  | .ok bytes =>
    match Text.ofBytes? bytes with
    | some t => .ok t
    | none => .error .notText

/-! ## Faults -/

inductive LoadError where
  | unread (fault : ReadFault)
  | badYaml
  | badJson (e : Json.Error)
  | violated (vs : List Violation)
  | config (e : ConfigError)

namespace LoadError

/-- The text of the cause, where the error only passes it on. -/
def cause? : LoadError → Option String
  | unread fault => some fault.message
  | badYaml => some "the text is not a YAML document"
  | badJson e => some e.message
  | violated _ => none
  | config _ => none

def heading : LoadError → String
  | unread _ => "Failed to read variants file: "
  | badYaml => "Failed to parse YAML: "
  | badJson _ => "Failed to parse JSON: "
  | violated vs => "Schema validation failed: " ++ "; ".intercalate (vs.map Violation.text)
  | config e => e.message

def message (e : LoadError) : String := e.heading ++ e.cause?.getD ""

end LoadError

/-! ## Formats -/

inductive Format where
  | json
  | yaml
  deriving DecidableEq, Repr

namespace Format

/-- The part of a file's name after its last point, if something stands before the point. -/
def extension? (name : List Char) : Option (List Char) :=
  match name.reverse.dropWhile (· ≠ '.') with
  | _ :: _ :: _ => some (name.reverse.takeWhile (· ≠ '.')).reverse
  | _ => none

/-- The name of the file at the end of a path. -/
def fileName? (path : String) : Option (List Char) :=
  match ((Text.pieces '/' path.toList).filter fun p => p ≠ [] && p ≠ ['.']).getLast? with
  | some ['.', '.'] => none
  | last => last

/-- The format that the name of a file asks for. -/
def ofPath (path : String) : Format :=
  match (fileName? path).bind extension? with
  | some ext =>
    if ["yaml", "yml"].contains (String.ofList (ext.map Char.toLower)) then yaml else json
  | none => json

end Format

/-! ## Loading -/

namespace Load

def json (s : String) : Except LoadError Document :=
  match Json.read s with
  | .ok d => .ok d
  | .error e => .error (.badJson e)

def yaml (s : String) : Except LoadError Document :=
  match Yaml.read? s with
  | some d => .ok d
  | none => .error .badYaml

def text : Format → String → Except LoadError Document
  | .json => json
  | .yaml => yaml

def source (format : Format) (s : Source) : Except LoadError Document :=
  match s.text with
  | .ok t => text format t
  | .error fault => .error (.unread fault)

/-- A document from a file in the format that its path asks for. -/
def file (path : String) (s : Source) : Except LoadError Document := source (.ofPath path) s

/-- The entries of a configuration that keeps to the schema. -/
def checked {G : Type} (r : Registry G) (config : Document) :
    Except LoadError (List (Variant G)) :=
  match violations config with
  | [] =>
    match Variant.parseAll r config with
    | .ok vs => .ok vs
    | .error e => .error (.config e)
  | v :: vs => .error (.violated (v :: vs))

/-- The entries of a file that keeps to the schema. -/
def checkedFile {G : Type} (r : Registry G) (path : String) (s : Source) :
    Except LoadError (List (Variant G)) := do
  checked r (← file path s)

end Load

end Rollout
