import Rollout.Load

/-! Folders: files by name, and the paths that lead to them. A path is walked part by part; empty
parts and single points stay where they are, two points go one folder up, and nothing is found
inside a file. Of what lies outside of the folder only that is known which every system has: the
folders around it, the root with its usual folders, and the empty file `/dev/null`. -/
namespace Rollout
set_option autoImplicit false

structure Folder where
  files : Entries (List UInt8)

namespace Folder

/-! ## Places -/

/-- A folder that a path can lead to: the one that the path starts from, one that this lies in,
the root, or one that is usual in the root. -/
inductive Spot where
  | here
  | above
  | root
  | usual (name : String)
  deriving DecidableEq, Repr

/-- The folder that a folder lies in. The root lies in itself. -/
def Spot.parent : Spot → Spot
  | here => above
  | above => above
  | root => root
  | usual _ => root

def usualNames : List String :=
  ["bin", "boot", "dev", "etc", "home", "lib", "media", "mnt", "opt", "proc", "root", "run",
    "sbin", "srv", "sys", "tmp", "usr", "var"]

inductive Place where
  | folder (spot : Spot)
  | file (bytes : List UInt8)
  | fault (f : ReadFault)

def named (d : Folder) (spot : Spot) (name : String) : Place :=
  match spot with
  | .here =>
    match d.files.find? name with
    | some bytes => .file bytes
    | none => .fault .missing
  | .above => .fault .missing
  | .root => if usualNames.contains name then .folder (.usual name) else .fault .missing
  | .usual outer => if outer = "dev" && name = "null" then .file [] else .fault .missing

/-! ## Paths -/

def maxName : Nat := 255

def maxPath : Nat := 4095

def walk (d : Folder) (p : Place) (part : List Char) : Place :=
  match p with
  | .folder spot =>
    if part = [] || part = ['.'] then .folder spot
    else if part = ['.', '.'] then .folder spot.parent
    else if maxName < Text.byteCount part then .fault .longName
    else d.named spot (String.ofList part)
  | .file _ => .fault .insideFile
  | .fault f => .fault f

def start (path : List Char) : Spot := if path.head? = some '/' then .root else .here

/-- What is found under a path from the folder. -/
def find (d : Folder) (path : String) : Source :=
  if maxPath < Text.byteCount path.toList then .error .longName
  else
    match (Text.pieces '/' path.toList).foldl d.walk (.folder (start path.toList)) with
    | .file bytes => .ok bytes
    | .folder _ => .error .folder
    | .fault f => .error f

end Folder

end Rollout
