import ThreatModel.Command.Arguments
import ThreatModel.Command.Outcome
import ThreatModel.EnvironmentFile

/-!
# The program

Arguments, variables and files in, an outcome out.
-/

namespace ThreatModel.Program

/-- What is printed for the version. -/
def versionText : String := "threat-scan 0.1.0\n"

/-- What is printed for help. -/
def helpText : String := String.join (List.map (· ++ "\n") [
  "Rule-based threat modeling over an element diagram.",
  "",
  "Usage: threat-scan [--rules-dir DIRECTORY] [--max-depth COUNT] TASK",
  "",
  "scan [--diagram FILE] [--threads COUNT] [--format table|json] [--fail-on SEVERITY]",
  "  Evaluates the enabled rules on a diagram and prints a report.",
  "validate [--strict]",
  "  Checks the documents of the rules and threats."])

/-- The outcome of arguments that are no command. -/
def haltOutcome : Halt → Outcome
  | .help => { status := 0, output := helpText }
  | .version => { status := 0, output := versionText }
  | .misuse cause => { status := 2, output := "", complaint := cause.message }

/-- The name of the file that adds to the environment. -/
def environmentFile : String := ".env"

/-- The environment with what the bytes of the file of variables add, if there is one. -/
def environmentWith (environment : Environment) (bytes : Option ByteArray) : Environment :=
  match bytes with
  | some bytes => EnvironmentFile.load environment bytes
  | none => environment

/-- The directories of an absolute path, from the innermost one out, without the slashes at their ends. -/
def directoriesAround (path : String) : List String :=
  let names := FileTree.namesOf path
  (List.range names.length).reverse.map fun count => "/".intercalate (names.take (count + 1))

/-- The outcome of a run in a directory. -/
def run (directory : FileTree) (environment : Environment) (arguments : List String) (time : String) :
    Outcome :=
  let environment := environmentWith environment ((directory.find? environmentFile).bind FileTree.bytes?)
  match Command.ofArguments environment arguments with
  | .error halt => haltOutcome halt
  | .ok command =>
    let settings := command.settings environment
    command.task.outcome settings (directory.find? settings.rulesDirectory)
      (directory.read? settings.diagramPath) time

end ThreatModel.Program
