import ThreatModel.Analysis
import ThreatModel.Environment
import ThreatModel.Number.Natural
import ThreatModel.Text.Case

/-!
# Settings

Where rules and diagrams are found and how scans run, as the environment says. A profile may have a value
of its own for each setting, which then counts.
-/

namespace ThreatModel

structure Settings where
  /-- The name of the profile in capitals; empty if there is none. -/
  profile : String
  rulesDirectory : String
  diagramPath : String
  /-- How deep lists of conditions are looked at. -/
  maxDepth : Nat
  /-- How many rules may be evaluated at a time; with zero they share an analyzer. -/
  threads : Nat
  deriving DecidableEq, Repr

namespace Settings

/-- What a setting is called where a profile has a value of its own for it. -/
def profiledName (profile name : String) : String := profile ++ "_" ++ name

/-- The value of a setting under a profile. Empty values count as none. -/
def value? (environment : Environment) (profile name : String) : Option String :=
  let own := if profile.isEmpty then none else environment.nonempty? (profiledName profile name)
  match own with
  | some value => some value
  | none => environment.nonempty? name

/-- The count that a setting gives under a profile. A value that is no count leaves the usual one. -/
def count (environment : Environment) (profile name : String) (usual : Nat) : Nat :=
  ((value? environment profile name).bind Natural.ofText?).getD usual

/-- The settings of a profile, in small or capital letters. -/
def ofProfile (environment : Environment) (profile : String) : Settings :=
  let profile := Text.upper profile
  { profile := profile
    rulesDirectory := (value? environment profile "RULES_DIR").getD "data/rules"
    diagramPath := (value? environment profile "DIAGRAM_PATH").getD "data/diagrams/diagram.json"
    maxDepth := count environment profile "MAX_RULE_DEPTH" Analyzer.defaultMaxDepth
    threads := count environment profile "SCAN_THREADS" 0 }

/-- The settings of the profile that the environment names. -/
def ofEnvironment (environment : Environment) : Settings :=
  ofProfile environment ((environment.get? "THREATLENS_PROFILE").getD "")

/-- What the profile is called. -/
def label (settings : Settings) : String :=
  if settings.profile.isEmpty then "default" else settings.profile

end Settings
end ThreatModel
