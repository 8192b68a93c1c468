import Rollout.Json.Printer
import Rollout.Text.Quoted

/-! Checks of documents. A check reports every rule that a document breaks, each with the place
of the part that breaks it, which is the steps that lead there from the root. The check of a part
reports the same wherever the part stands, its place apart. A rule for one form of documents says
nothing of those of another form. -/
namespace Rollout
set_option autoImplicit false

/-! ## Places -/

/-- A step from a document to one of its parts. -/
inductive Step where
  | index (i : Nat)
  | member (name : String)
  deriving DecidableEq, Repr

namespace Step

/-- Two characters are escaped in a pointer: the one that escapes and the one that separates. -/
def escapePointer (c : Char) : List Char :=
  if c = '~' then ['~', '0'] else if c = '/' then ['~', '1'] else [c]

def token : Step → String
  | index i => toString i
  | member name => String.ofList (name.toList.flatMap escapePointer)

end Step

/-- A place as a JSON pointer, empty for the root. -/
def pointer (place : List Step) : String := String.join (place.map fun s => "/" ++ s.token)

/-! ## Violations -/

inductive Form where
  | null
  | text
  | list
  | object
  deriving DecidableEq, Repr

namespace Form

def name : Form → String
  | null => "null"
  | text => "string"
  | list => "array"
  | object => "object"

def fits : Form → Document → Bool
  | null, .null => true
  | text, .text _ => true
  | list, .list _ => true
  | object, .object _ => true
  | _, _ => false

end Form

inductive Complaint where
  | form (found : Document) (allowed : List Form)
  | missing (name : String)
  | noItem
  | noMember
  | noCharacter
  | mismatch (found pattern : String)

def Complaint.message : Complaint → String
  | form found [f] => Json.compact found ++ " is not of type " ++ Json.quoted f.name
  | form found fs =>
    Json.compact found ++ " is not of types " ++
      Text.commaSeparated (fs.map fun f => Json.quoted f.name)
  | missing name => Json.quoted name ++ " is a required property"
  | noItem => "[] has less than 1 item"
  | noMember => "\x7b\x7d has less than 1 property"
  | noCharacter => "\x22\x22 is shorter than 1 character"
  | mismatch found pattern => Json.quoted found ++ " does not match \x22" ++ pattern ++ "\x22"

structure Violation where
  place : List Step
  complaint : Complaint

namespace Violation

/-- The violation of a part, seen from the document that a step leads to the part from. -/
def under (s : Step) (v : Violation) : Violation := ⟨s :: v.place, v.complaint⟩

def path (v : Violation) : String := pointer v.place

def message (v : Violation) : String := v.complaint.message

/-- The message, and where there is a path to name, the path. -/
def text (v : Violation) : String :=
  if v.place = [] then v.message else v.message ++ " at " ++ v.path

end Violation

/-! ## Checks -/

abbrev Check := Document → List Violation

namespace Check

/-- The report of one broken rule about the document itself. -/
def report (c : Complaint) : List Violation := [⟨[], c⟩]

def form (allowed : List Form) : Check := fun d =>
  if allowed.any fun f => f.fits d then [] else report (.form d allowed)

def required (name : String) : Check
  | .object members => if (Entries.find? members name).isSome then [] else report (.missing name)
  | _ => []

/-- A member that is there passes a check. -/
def member (name : String) (c : Check) : Check := fun d =>
  match d.member? name with
  | some v => (c v).map (Violation.under (.member name))
  | none => []

def members (c : Check) : Check
  | .object members => members.flatMap fun e => (c e.2).map (Violation.under (.member e.1))
  | _ => []

/-- The reports on items that stand from a position on. -/
def itemsAfter (c : Check) : Nat → List Document → List Violation
  | _, [] => []
  | i, d :: rest => (c d).map (Violation.under (.index i)) ++ itemsAfter c (i + 1) rest

def items (c : Check) : Check
  | .list ds => itemsAfter c 0 ds
  | _ => []

def someItem : Check
  | .list [] => report .noItem
  | _ => []

def someMember : Check
  | .object [] => report .noMember
  | _ => []

def someCharacter : Check
  | .text s => if s = "" then report .noCharacter else []
  | _ => []

/-- A text is one of those that a pattern stands for. -/
def pattern (written : String) (accepts : String → Bool) : Check
  | .text s => if accepts s then [] else report (.mismatch s written)
  | _ => []

def all (cs : List Check) : Check := fun d => cs.flatMap fun c => c d

end Check

end Rollout
