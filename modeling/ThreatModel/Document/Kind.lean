/-!
# Kinds of documents

A document describes a rule or a threat, and says which.
-/

namespace ThreatModel

inductive DocumentKind
  | rule | threat
  deriving DecidableEq, Repr

namespace DocumentKind

def all : List DocumentKind := [rule, threat]

def name : DocumentKind → String
  | rule => "ThreatRule"
  | threat => "Threat"

/-- The kind of a name, which is spelt exactly. -/
def ofName? (name : String) : Option DocumentKind := all.find? (·.name = name)

theorem ofName?_name (kind : DocumentKind) : ofName? kind.name = some kind := by
  cases kind <;> decide

end DocumentKind
end ThreatModel
