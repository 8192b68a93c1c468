import Rollout.Command.Report
import Std.Time

/-! The command line program: it reads the files that a request names, takes the time and a random
seed, and prints the report. -/
namespace Rollout
set_option autoImplicit false

def readSource (path : String) : IO Source := do
  try
    return .ok (← IO.FS.readBinFile path).toList
  catch e =>
    return .error <| match e with
      | .permissionDenied _ _ _ => .denied
      | .inappropriateType _ code _ => if code = 21 then .folder else .insideFile
      | .invalidArgument _ _ _ => .longName
      | _ => .missing

/-- The sources of the files that the arguments name. -/
def readSources (args : List String) : IO (List (String × Source)) :=
  match Request.ofArguments args with
  | .ok r => r.paths.mapM fun path => do return (path, ← readSource path)
  | .error _ => return []

def sourceAmong (sources : List (String × Source)) (path : String) : Source :=
  match sources.find? fun s => s.1 = path with
  | some s => s.2
  | none => .error .missing

/-- A source of random numbers that differs from run to run. -/
def randomSource : IO Generator := do
  let bytes ← IO.getRandomBytes 8
  return .seeded (bytes.toList.foldl (fun n b => n * 256 + b.toUInt64) 0)

/-- The time in UTC, with a `T` before the hour and a `Z` behind. -/
def currentTime : IO String := do
  let now ← Std.Time.Timestamp.now
  let now := Std.Time.DateTime.ofTimestamp now Std.Time.TimeZone.ZoneRules.UTC
  return now.format "uuuu-MM-dd'T'HH:mm:ss.SSSSSSSSS'Z'"

end Rollout

open Rollout in
def main (args : List String) : IO UInt32 := do
  let sources ← readSources args
  match run (sourceAmong sources) (← randomSource) (← currentTime) args with
  | some r =>
    IO.print r.out
    IO.eprint r.err
    return UInt32.ofNat r.code
  | none => return 1
