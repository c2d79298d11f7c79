import ThreatModel.Document.Kind
import ThreatModel.Expression.ParseError
import ThreatModel.Fault

/-!
# Diagnostics

What is wrong with a document, and where. An error makes the document invalid; a warning points at what is
allowed but hardly meant.
-/

namespace ThreatModel

/-- A step from a value of a document to a part of it. -/
inductive Step
  | key (name : String)
  | index (place : Nat)
  deriving DecidableEq, Repr

/-- A place in a document, as the steps to it. -/
abbrev Place := List Step

namespace Place

/-- The text of steps behind other steps. -/
def continued : Place → String
  | [] => ""
  | .key name :: rest => "." ++ name ++ continued rest
  | .index place :: rest => s!"[{place}]" ++ continued rest

/-- A place as it is written: keys with points between them, and numbers in brackets. -/
def text : Place → String
  | .key name :: rest => name ++ continued rest
  | steps => continued steps

/-- A place inside records. -/
def ofKeys (names : List String) : Place := names.map .key

end Place

inductive Problem
  /-- The text does not read as a document. -/
  | unreadable (fault : Fault)
  | wrongVersion (found : String)
  | wrongKind (expected : DocumentKind) (found : String)
  | emptyId
  | emptyName
  | emptyThreat
  /-- No threat has the id; a similar one may be meant. -/
  | unknownThreat (id : String) (similar : Option String)
  /-- A binding stands where no list is around it. -/
  | loneBinding
  | invalidCondition (expression : String) (fault : ParseError)
  | invalidBinding (expression : String) (fault : ParseError)
  | oddRuleId (id : String)
  | oddThreatId (id : String)
  /-- A list is nested deeper than lists are looked at. -/
  | tooDeep (depth limit : Nat)
  | emptyList
  | noConditions
  | unbound (name : String)
  | noMitigation
  | oddWeakness (name : String)
  | unknownStride (name : String) (similar : Option String)
  deriving DecidableEq, Repr

namespace Problem

/-- Whether a problem makes a document invalid. -/
def isError : Problem → Bool
  | unreadable _ | wrongVersion _ | wrongKind _ _ | emptyId | emptyName | emptyThreat | unknownThreat _ _
  | loneBinding | invalidCondition _ _ | invalidBinding _ _ => true
  | _ => false

def message : Problem → String
  | unreadable fault => s!"YAML parse error: {fault.message}"
  | wrongVersion found => s!"apiVersion must be 'v1', got '{found}'"
  | wrongKind expected found => s!"kind must be '{expected.name}', got '{found}'"
  | emptyId => "id must not be empty"
  | emptyName => "name must not be empty"
  | emptyThreat => "threat must not be empty"
  | unknownThreat id _ => s!"unknown threat '{id}'; the rule will never produce findings"
  | loneBinding => "variable is only allowed inside a list"
  | invalidCondition expression fault => s!"invalid expression '{expression}': {fault.message}"
  | invalidBinding expression fault => s!"invalid binding '{expression}': {fault.message}"
  | oddRuleId id => s!"id should be kebab-case (lowercase alphanumeric + hyphens), got '{id}'"
  | oddThreatId id => s!"id should be kebab-case, got '{id}'"
  | tooDeep depth limit =>
    s!"nesting depth {depth} exceeds the limit of {limit}; this list always evaluates to false"
  | emptyList => "empty list"
  | noConditions => "list binds variables but has no conditions"
  | unbound name => s!"variable '{name}' is not bound here; the comparison is always false"
  | noMitigation => "no mitigation described"
  | oddWeakness name => s!"expected 'CWE-<number>', got '{name}'"
  | unknownStride name none => s!"unknown STRIDE category '{name}'"
  | unknownStride name (some similar) => s!"unknown STRIDE category '{name}'; did you mean '{similar}'?"

/-- What is suggested instead. -/
def suggestion? : Problem → Option String
  | unknownThreat _ (some similar) => some s!"Did you mean '{similar}'?"
  | _ => none

end Problem

/-- A problem and its place. -/
structure Diagnostic where
  place : Place
  problem : Problem
  deriving DecidableEq, Repr

namespace Diagnostic

def isError (diagnostic : Diagnostic) : Bool := diagnostic.problem.isError

end Diagnostic

/-- The errors among diagnostics, in order. -/
def errorsIn (diagnostics : List Diagnostic) : List Diagnostic := diagnostics.filter Diagnostic.isError

/-- The warnings among diagnostics, in order. -/
def warningsIn (diagnostics : List Diagnostic) : List Diagnostic :=
  diagnostics.filter (!Diagnostic.isError ·)

/-- Whether a document with some diagnostics is valid. -/
def isValid (diagnostics : List Diagnostic) : Bool := (errorsIn diagnostics).isEmpty

end ThreatModel
