import Rollout.Yaml.Plain

/-! Requests: what a command line asks for. Options are long, take one value, attached after an
equals sign or as the next argument, and come once, except for groups. An argument that begins
with a hyphen is never taken for a value unless it is attached or follows two hyphens. -/
namespace Rollout
set_option autoImplicit false

/-! ## Commands -/

inductive Command where
  | mods
  | explain
  | validate
  | types
  deriving DecidableEq, Repr

namespace Command

def ofName? (name : String) : Option Command :=
  if name = "mods" then some mods
  else if name = "explain" then some explain
  else if name = "validate" then some validate
  else if name = "types" then some types
  else none

/-- The option that every command takes. -/
def levelName : String := "log-level"

def optionNames : Command → List String
  | mods => ["context", "username", "group", "search", "seed", levelName]
  | explain => ["context", "username", "group", "search", "seed", levelName]
  | validate => [levelName]
  | types => [levelName]

/-- All commands but the list of types are about a configuration. -/
def takesConfig (c : Command) : Bool := c ≠ types

end Command

/-! ## Requests -/

/-- The options of a resolution; a seed makes its draws repeatable. -/
structure Options where
  context : Option String
  username : Option String
  groups : List String
  search : Option String
  seed : Option UInt64
  deriving DecidableEq, Repr

inductive Request where
  | mods (config : String) (options : Options)
  | explain (config : String) (options : Options)
  | validate (config : String)
  | types
  deriving DecidableEq, Repr

inductive Halt where
  | rejected
  | help
  | version
  deriving DecidableEq, Repr

/-! ## Arguments -/

inductive Argument where
  | value
  | hyphens
  | help
  | version
  | attached (name value : String)
  | option (name : String)
  | unknown
  deriving DecidableEq, Repr

/-- The form of an argument; a single hyphen is a value. -/
def Argument.ofText (s : String) : Argument :=
  match s.toList with
  | ['-', '-'] => hyphens
  | '-' :: '-' :: rest =>
    let name := String.ofList (rest.takeWhile (· ≠ '='))
    match rest.dropWhile (· ≠ '=') with
    | _ :: cs => attached name (String.ofList cs)
    | [] => if name = "help" then help else if name = "version" then version else option name
  | '-' :: 'h' :: _ => help
  | '-' :: 'V' :: _ => version
  | '-' :: _ :: _ => unknown
  | _ => value

/-- The number that a seed is written as: digits, perhaps after a plus sign, below `2 ^ 64`. -/
def seed? (s : String) : Option UInt64 :=
  let digits := match s.toList with
    | '+' :: rest => rest
    | cs => cs
  match Yaml.radix? 10 digits with
  | some n => if n < twoTo 64 then some (UInt64.ofNat n) else none
  | none => none

structure Given where
  config : Option String
  options : Options
  level : Option String
  deriving DecidableEq, Repr

namespace Given

def nothing : Given := ⟨none, ⟨none, none, [], none, none⟩, none⟩

/-- The value of an option that has not been given before. -/
def once {α : Type} (given : Option α) (value : α) : Except Halt (Option α) :=
  match given with
  | none => .ok (some value)
  | some _ => .error .rejected

/-- The path of a file is not empty. -/
def path (s : String) : Except Halt String := if s = "" then .error .rejected else .ok s

def set (c : Command) (g : Given) (name value : String) : Except Halt Given :=
  if !c.optionNames.contains name then .error .rejected
  else if name = "context" then do
    let v ← once g.options.context (← path value)
    return { g with options := { g.options with context := v } }
  else if name = "username" then do
    let v ← once g.options.username value
    return { g with options := { g.options with username := v } }
  else if name = "group" then
    .ok { g with options := { g.options with groups := g.options.groups ++ [value] } }
  else if name = "search" then do
    let v ← once g.options.search value
    return { g with options := { g.options with search := v } }
  else if name = "seed" then
    match seed? value with
    | none => .error .rejected
    | some n => do
      let v ← once g.options.seed n
      return { g with options := { g.options with seed := v } }
  else do
    let v ← once g.level value
    return { g with level := v }

/-- Takes a value for the path of the configuration. -/
def take (c : Command) (g : Given) (value : String) : Except Halt Given :=
  if c.takesConfig then do
    let v ← once g.config (← path value)
    return { g with config := v }
  else .error .rejected

def read (c : Command) : Given → List String → Except Halt Given
  | g, [] => .ok g
  | g, arg :: rest =>
    match Argument.ofText arg with
    | .value => do read c (← g.take c arg) rest
    | .hyphens => rest.foldlM (take c) g
    | .help => .error .help
    | .attached name value => do read c (← g.set c name value) rest
    | .option name =>
      match rest with
      | value :: rest =>
        if Argument.ofText value = .value then do read c (← g.set c name value) rest
        else .error .rejected
      | [] => .error .rejected
    | .version => .error .rejected
    | .unknown => .error .rejected

/-- The request of a command with all that it needs. -/
def request (c : Command) (g : Given) : Except Halt Request :=
  match c, g.config with
  | .mods, some config => .ok (.mods config g.options)
  | .explain, some config => .ok (.explain config g.options)
  | .validate, some config => .ok (.validate config)
  | .types, none => .ok .types
  | _, _ => .error .rejected

end Given

namespace Request

/-- What follows the word for help: nothing or the name of a command. -/
def helped : List String → Halt
  | [] => .help
  | [name] => if (Command.ofName? name).isSome || name = "help" then .help else .rejected
  | _ => .rejected

/-- Finds the command after the options that go before it; `given` says whether the level has
been given. -/
def ofArgumentsAfter (given : Bool) : List String → Except Halt Request
  | [] => .error .rejected
  | arg :: rest =>
    match Argument.ofText arg with
    | .value =>
      match Command.ofName? arg with
      | some c => do (← Given.nothing.read c rest).request c
      | none => .error (if arg = "help" then helped rest else .rejected)
    | .help => .error .help
    | .version => .error .version
    | .attached name _ =>
      if name = Command.levelName && !given then ofArgumentsAfter true rest
      else .error .rejected
    | .option name =>
      match rest with
      | value :: rest =>
        if name = Command.levelName && !given && Argument.ofText value = .value then
          ofArgumentsAfter true rest
        else .error .rejected
      | [] => .error .rejected
    | .hyphens => .error .rejected
    | .unknown => .error .rejected

/-- The paths of the files that a request is about. -/
def paths : Request → List String
  | mods config o => config :: o.context.toList
  | explain config o => config :: o.context.toList
  | validate config => [config]
  | types => []

def ofArguments (args : List String) : Except Halt Request := ofArgumentsAfter false args

end Request

end Rollout
