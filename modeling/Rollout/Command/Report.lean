import Rollout.Command.Request
import Rollout.Context.Yaml
import Rollout.Engine
import Rollout.Load

/-! Reports: what the command line prints and the code it ends with. A request is answered from
the files that can be found, a source of random numbers for a resolution without a seed, and the
time. A configuration is loaded before the context, and options go before what the context's file
says. -/
namespace Rollout
set_option autoImplicit false

/-! ## Resolutions as documents -/

def Activation.word : Activation → String
  | forced => "url_override"
  | conditions => "conditions"
  | inactive => "inactive"

def Mods.toDocument (m : Mods) : Document :=
  .object (m.entries.map fun e => (e.1, .text e.2))

def Outcome.toDocument (o : Outcome) : Document :=
  .object [("id", .text o.id), ("activation", .text o.activation.word)]

/-- A resolution with the time at which it was made. -/
def Resolution.toDocument (r : Resolution) (time : String) : Document :=
  .object [("mods", r.mods.toDocument), ("variants", .list (r.outcomes.map Outcome.toDocument)),
    ("url_overrides", .list (r.requested.map .text)), ("evaluated_at", .text time)]

/-! ## Faults -/

inductive Failure where
  | load (path : String) (e : LoadError)
  | contextUnread (path : String) (fault : ReadFault)
  | contextForm (path : String)
  | config (e : ConfigError)

/-- A text that only passes its cause on is followed by the cause. -/
def Failure.message : Failure → String
  | load path e =>
    ": ".intercalate (["Failed to load " ++ path, e.message] ++ e.cause?.toList)
  | contextUnread path fault => "Failed to read context file " ++ path ++ ": " ++ fault.message
  | contextForm path => "Failed to parse context file " ++ path ++ ": the text holds no context"
  | config e => e.message

/-! ## Reports -/

/-- The code that a command ends with and what it prints. -/
structure Report where
  code : Nat
  out : String
  err : String
  deriving DecidableEq, Repr

namespace Report

def line (s : String) : String := s ++ "\n"

def printed (s : String) : Report := ⟨0, line s, ""⟩

def failed (f : Failure) : Report := ⟨1, "", line ("Error: " ++ f.message)⟩

def usage : String :=
  "variants [--log-level LEVEL] mods|explain CONFIG [--context FILE] [--username NAME]\n" ++
  "  [--group NAME]... [--search QUERY] [--seed NUMBER]\n" ++
  "variants [--log-level LEVEL] validate CONFIG\n" ++
  "variants [--log-level LEVEL] types"

def halted : Halt → Report
  | .rejected => ⟨2, "", line usage⟩
  | .help => printed usage
  | .version => printed "variants 0.1.0"

end Report

/-! ## Answers -/

/-- A text with blanks behind it up to a width, and one more. -/
def padded (width : Nat) (s : String) : String :=
  s ++ String.ofList (List.replicate (width - s.length) ' ') ++ " "

namespace Options

def contextOfFile (path : String) (s : Source) : Except Failure Context :=
  match s.text with
  | .error fault => .error (.contextUnread path fault)
  | .ok t =>
    match Context.ofYaml? t with
    | some c => .ok c
    | none => .error (.contextForm path)

/-- A context in which the options that are given replace what is there. -/
def apply (o : Options) (c : Context) : Context :=
  { c with
    username := o.username <|> c.username
    groups := if o.groups = [] then c.groups else some o.groups
    search := o.search <|> c.search }

def context? (o : Options) (files : String → Source) : Except Failure Context :=
  match o.context with
  | some path => (contextOfFile path (files path)).map o.apply
  | none => .ok (o.apply Context.empty)

/-- The source of random numbers: the seed's, or else the one at hand. -/
def source (o : Options) (entropy : Generator) : Generator :=
  match o.seed with
  | some n => .seeded n
  | none => entropy

end Options

namespace Request

def engine : Engine Generator := .standard

def resolution (files : String → Source) (entropy : Generator) (config : String) (o : Options) :
    Option (Except Failure Resolution) :=
  match Load.file config (files config) with
  | .error e => some (.error (.load config e))
  | .ok d =>
    match o.context? files with
    | .error f => some (.error f)
    | .ok ctx =>
      (engine.resolve (o.source entropy) d ctx).map fun r => r.value.mapError .config

/-- The report of a resolution that is shown as a document. -/
def resolutionReport (files : String → Source) (entropy : Generator)
    (doc : Resolution → Document) (config : String) (o : Options) : Option Report :=
  (resolution files entropy config o).map fun r =>
    match r with
    | .ok r => .printed (Json.indented 0 (doc r))
    | .error f => .failed f

/-- All that is wrong with a configuration: the violations of its schema, then the fault at which
building its entries stops. -/
def problems (d : Document) : List String :=
  (violations d).map Violation.text ++
    match engine.parse d with
    | .ok _ => []
    | .error e => [e.message]

def validation (files : String → Source) (config : String) : Report :=
  match Load.file config (files config) with
  | .error e => .failed (.load config e)
  | .ok d =>
    match problems d with
    | [] => .printed ("OK: " ++ config)
    | ps => ⟨1, String.join (ps.map fun p => Report.line ("ERROR: " ++ p)), ""⟩

def typeLines : String :=
  String.join (engine.registry.kinds.map fun k => Report.line (padded 20 k.tag ++ k.summary))

/-- The report of a request; none if a draw it needs never comes. -/
def report (files : String → Source) (entropy : Generator) (time : String) :
    Request → Option Report
  | mods config o => resolutionReport files entropy (fun r => r.mods.toDocument) config o
  | explain config o => resolutionReport files entropy (fun r => r.toDocument time) config o
  | validate config => some (validation files config)
  | types => some ⟨0, typeLines, ""⟩

end Request

def run (files : String → Source) (entropy : Generator) (time : String) (args : List String) :
    Option Report :=
  match Request.ofArguments args with
  | .ok r => r.report files entropy time
  | .error h => some (.halted h)

end Rollout
