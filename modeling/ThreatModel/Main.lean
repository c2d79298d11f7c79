import ThreatModel.Program
import Std.Time.Format

/-!
# The command line

Reads what a run needs from the system, prints what it comes to, and ends with its status.
-/

namespace ThreatModel.Program

/-- The bytes of a file of the system; none if it cannot be read. -/
def bytesAt (path : String) : BaseIO (Option ByteArray) := do
  return (← (IO.FS.readBinFile path).toBaseIO).toOption

/-- What the system has at a path; none if there is nothing. A directory that cannot be read is empty. -/
partial def treeAt (path : String) : IO (Option FileTree) := do
  let place := (← IO.currentDir) / path
  if ← place.isDir then
    let listing := (← place.readDir.toBaseIO).toOption.getD #[]
    let entries ← listing.toList.mapM fun entry => do
      return (entry.fileName, (← treeAt entry.path.toString).getD (.file none))
    return some (.directory entries)
  else return (← bytesAt path).map fun bytes => .file (some bytes)

/-- The variables of the process. -/
def processEnvironment : BaseIO Environment := do
  return ((← bytesAt "/proc/self/environ").map Environment.ofBytes).getD ⟨[]⟩

/-- The bytes of the file of variables in the working directory or the nearest one around it. -/
def variablesFile : IO (Option ByteArray) := do
  (directoriesAround (← IO.currentDir).toString).findSomeM? fun directory =>
    bytesAt (directory ++ "/" ++ environmentFile)

/-- A number with zeros in front of it. -/
def padded (width : Nat) (number : Int) : String :=
  let digits := toString number
  String.ofList (List.replicate (width - digits.length) '0') ++ digits

/-- The present time. -/
def now : IO String := do
  let stamp ← Std.Time.Timestamp.now
  let moment := Std.Time.PlainDateTime.ofWallTime (.ofNanoseconds stamp.toNanosecondsSinceUnixEpoch)
  let date := "-".intercalate
    [padded 4 moment.date.year, padded 2 moment.date.month.val, padded 2 moment.date.day.val]
  let time := ":".intercalate
    [padded 2 moment.time.hour.val, padded 2 moment.time.minute.val, padded 2 moment.time.second.val]
  return date ++ "T" ++ time ++ "." ++ padded 9 moment.time.nanosecond.val ++ "Z"

/-- The outcome of a run with the files of the system. -/
def runHere (arguments : List String) : IO Outcome := do
  let environment := environmentWith (← processEnvironment) (← variablesFile)
  match Command.ofArguments environment arguments with
  | .error halt => return haltOutcome halt
  | .ok command =>
    let settings := command.settings environment
    let rules ← treeAt settings.rulesDirectory
    let diagram := (← bytesAt settings.diagramPath).bind String.fromUTF8?
    return command.task.outcome settings rules diagram (← now)

end ThreatModel.Program

def main (arguments : List String) : IO UInt32 := do
  let outcome ← ThreatModel.Program.runHere arguments
  (← IO.getStdout).putStr outcome.output
  unless outcome.complaint.isEmpty do (← IO.getStderr).putStrLn outcome.complaint
  return outcome.status.toUInt32
