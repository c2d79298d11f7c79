import ThreatModel.Command

/-!
# The arguments of a command

Arguments are read from the first to the last, and the first one that ends the reading counts: a request for
help or the version, or a misuse. Options stand before the name of the task or behind it; where one is given in
both places, the one behind counts.
-/

namespace ThreatModel

/-- An option of the command line. -/
inductive Flag
  | rulesDirectory | maxDepth | diagram | threads | format | threshold | strict | version | help
  deriving DecidableEq, Repr

/-- The name of an option, which stands behind two hyphens. -/
def Flag.name : Flag → String
  | rulesDirectory => "rules-dir"
  | maxDepth => "max-depth"
  | diagram => "diagram"
  | threads => "threads"
  | format => "format"
  | threshold => "fail-on"
  | strict => "strict"
  | version => "version"
  | help => "help"

/-- Why arguments are no command. -/
inductive Misuse
  | missingTask
  | unknownTask (name : String)
  | unknownOption (argument : String)
  | repeatedOption (flag : Flag)
  | missingValue (flag : Flag)
  | invalidValue (flag : Flag) (text : String)
  /-- A value for an option that has none. -/
  | needlessValue (flag : Flag)
  | unexpectedArgument (text : String)
  deriving DecidableEq, Repr

def Misuse.message : Misuse → String
  | missingTask => "a task is required: scan or validate"
  | unknownTask name => s!"unknown task '{name}'"
  | unknownOption argument => s!"unknown option '{argument}'"
  | repeatedOption flag => s!"the option '--{flag.name}' is given twice"
  | missingValue flag => s!"the option '--{flag.name}' needs a value"
  | invalidValue flag text => s!"'{text}' is no value of the option '--{flag.name}'"
  | needlessValue flag => s!"the option '--{flag.name}' has no value"
  | unexpectedArgument text => s!"unexpected argument '{text}'"

/-- What ends the reading of arguments before there is a command. -/
inductive Halt
  | help
  | version
  | misuse (cause : Misuse)
  deriving DecidableEq, Repr

/-- What an argument looks like. -/
inductive Argument
  /-- Two hyphens and a name, with a value if there is an equals sign. -/
  | long (name : String) (value : Option String)
  /-- A hyphen and letters, of which the first one is given. -/
  | short (letter : Char)
  /-- Two hyphens alone, behind which there are no options. -/
  | separator
  | word
  deriving DecidableEq, Repr

def Argument.ofText (text : String) : Argument :=
  match text.toList with
  | ['-', '-'] => separator
  | '-' :: '-' :: rest =>
    let name := String.ofList (rest.takeWhile (· ≠ '='))
    match rest.dropWhile (· ≠ '=') with
    | [] => long name none
    | _ :: value => long name (some (String.ofList value))
  | '-' :: letter :: _ => short letter
  | _ => word

/-! ## Options -/

/-- What options say in one place. -/
structure Choices where
  rulesDirectory : Option String := none
  maxDepth : Option Nat := none
  diagramPath : Option String := none
  threads : Option Nat := none
  format : Option ReportFormat := none
  threshold : Option Severity := none
  strict : Bool := false

namespace Choices

/-- A value for an option that has none yet. -/
def once (flag : Flag) (present : Option α) (text : String) (read : String → Option α) :
    Except Halt (Option α) :=
  match present, read text with
  | some _, _ => .error (.misuse (.repeatedOption flag))
  | none, some value => .ok (some value)
  | none, none => .error (.misuse (.invalidValue flag text))

/-- A path is any text but the empty one. -/
def path? (text : String) : Option String := if text.isEmpty then none else some text

def severity? (text : String) : Option Severity := (Severity.parse text).toOption

/-- Whether an option has a value. -/
def takesValue : Flag → Bool
  | .strict | .version | .help => false
  | _ => true

/-- An option with a value. -/
def withValue (choices : Choices) (flag : Flag) (text : String) : Except Halt Choices :=
  match flag with
  | .rulesDirectory => do
    return { choices with rulesDirectory := ← once flag choices.rulesDirectory text path? }
  | .maxDepth => do return { choices with maxDepth := ← once flag choices.maxDepth text Natural.ofText? }
  | .diagram => do return { choices with diagramPath := ← once flag choices.diagramPath text path? }
  | .threads => do return { choices with threads := ← once flag choices.threads text Natural.ofText? }
  | .format => do return { choices with format := ← once flag choices.format text ReportFormat.ofName? }
  | .threshold => do return { choices with threshold := ← once flag choices.threshold text severity? }
  | .strict | .version | .help => .error (.misuse (.needlessValue flag))

/-- An option without a value. -/
def withFlag (choices : Choices) (flag : Flag) : Except Halt Choices :=
  match flag with
  | .help => .error .help
  | .version => .error .version
  | .strict =>
    if choices.strict then .error (.misuse (.repeatedOption flag)) else .ok { choices with strict := true }
  | _ => .error (.misuse (.missingValue flag))

end Choices

/-! ## Reading -/

/-- How far the arguments have been read: before the name of the task, or behind it. -/
inductive Stage
  | start | scan | validate
  deriving DecidableEq, Repr

namespace Stage

/-- The options that may stand at a stage. -/
def flags : Stage → List Flag
  | start => [.rulesDirectory, .maxDepth, .version, .help]
  | scan => [.rulesDirectory, .maxDepth, .diagram, .threads, .format, .threshold, .help]
  | validate => [.rulesDirectory, .maxDepth, .strict, .help]

/-- The option of a name. -/
def flag? (stage : Stage) (name : String) : Option Flag := stage.flags.find? (·.name = name)

/-- The option of a letter. -/
def letterFlag? (stage : Stage) (letter : Char) : Option Flag :=
  if letter = 'h' then some .help
  else if letter = 'V' && stage = start then some .version
  else none

/-- The stage behind the name of a task. -/
def ofTask? : String → Option Stage
  | "scan" => some scan
  | "validate" => some validate
  | _ => none

end Stage

namespace Command

/-- What a request for help ends with, which may name a task or itself. -/
def helpOn : List String → Halt
  | [] | ["scan"] | ["validate"] | ["help"] => .help
  | name :: _ => .misuse (.unknownTask name)

/-- The variable that may stand for an option. -/
def valueOr (environment : Environment) (variableName : String) (flag : Flag) (chosen : Option α)
    (read : String → Option α) : Except Halt (Option α) :=
  match chosen, environment.get? variableName with
  | some value, _ => .ok (some value)
  | none, none => .ok none
  | none, some text => Choices.once flag none text read

/-- The command at the end of the arguments; `outer` are the options before the name of the task. -/
def finish (environment : Environment) (outer choices : Choices) (stage : Stage) : Except Halt Command := do
  let task ← match stage with
    | .start => .error (.misuse .missingTask)
    | .scan => do
      let format ← valueOr environment "THREAT_SCAN_FORMAT" .format choices.format ReportFormat.ofName?
      let threshold ←
        valueOr environment "THREAT_SCAN_FAIL_ON" .threshold choices.threshold Choices.severity?
      pure (Task.scan (format.getD .table) threshold)
    | .validate => pure (Task.validate choices.strict)
  return {
    rulesDirectory := choices.rulesDirectory <|> outer.rulesDirectory
    maxDepth := choices.maxDepth <|> outer.maxDepth
    diagramPath := choices.diagramPath
    threads := choices.threads
    task := task }

/-- Reads arguments at a stage. -/
def read (environment : Environment) (outer choices : Choices) (stage : Stage) :
    List String → Except Halt Command
  | [] => finish environment outer choices stage
  | text :: rest =>
    match Argument.ofText text with
    | .separator =>
      match rest with
      | [] => finish environment outer choices stage
      | next :: _ => .error (.misuse (.unexpectedArgument next))
    | .word =>
      if stage ≠ .start then .error (.misuse (.unexpectedArgument text))
      else if text = "help" then .error (helpOn rest)
      else
        match Stage.ofTask? text with
        | some task => read environment choices {} task rest
        | none => .error (.misuse (.unknownTask text))
    | .short letter =>
      match stage.letterFlag? letter with
      | some flag => do read environment outer (← choices.withFlag flag) stage rest
      | none => .error (.misuse (.unknownOption text))
    | .long name value =>
      match stage.flag? name, value with
      | none, _ => .error (.misuse (.unknownOption text))
      | some flag, some value => do read environment outer (← choices.withValue flag value) stage rest
      | some flag, none =>
        if !Choices.takesValue flag then do read environment outer (← choices.withFlag flag) stage rest
        else
          match rest with
          | [] => .error (.misuse (.missingValue flag))
          | value :: rest =>
            if Argument.ofText value = .word then do
              read environment outer (← choices.withValue flag value) stage rest
            else .error (.misuse (.missingValue flag))

/-- Reads the arguments of a command. Variables stand for some of the options that are not given. -/
def ofArguments (environment : Environment) (arguments : List String) : Except Halt Command :=
  read environment {} {} .start arguments

end Command
end ThreatModel
