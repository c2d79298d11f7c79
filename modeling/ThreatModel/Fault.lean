/-!
# Faults of a document

Why a text, or a value in it, does not read as the record it should be. Faults of syntax and of free
data are not told apart.
-/

namespace ThreatModel

/-- The forms that a condition of a rule may have, in the order in which they are named. -/
inductive Form
  | designs | either | design | variableBinding
  deriving DecidableEq, Repr

/-- The key under which a form is written. -/
def Form.key : Form → String
  | .designs => "designs"
  | .either => "either"
  | .design => "design"
  | .variableBinding => "variable"

inductive Fault
  | missingField (name : String)
  | unknownField (name : String)
  | duplicateField (name : String)
  | unknownVariant (name : String)
  /-- A value of another type than its field has. -/
  | wrongType
  /-- A condition that has no form, inside a rule's tree. -/
  | formlessNode
  /-- A condition that has more than one form. -/
  | manyForms (forms : List Form)
  /-- The condition of a rule that has no form. -/
  | formlessRule (rule : String)
  /-- The condition of a rule that has more than one form. -/
  | manyRuleForms (rule : String) (forms : List Form)
  | unknownKind (name : String)
  | duplicateElement (id : String)
  /-- All else: syntax, limits, and free data that cannot be held. -/
  | other
  deriving DecidableEq, Repr

namespace Fault

def formsText (forms : List Form) : String := ", ".intercalate (forms.map Form.key)

def message : Fault → String
  | missingField name => s!"missing field `{name}`"
  | unknownField name => s!"unknown field `{name}`"
  | duplicateField name => s!"duplicate field `{name}`"
  | unknownVariant name => s!"unknown variant `{name}`"
  | wrongType => "invalid type"
  | formlessNode => "node must have one of designs, either, design or variable"
  | manyForms forms => s!"node has more than one form: {formsText forms}"
  | formlessRule rule => s!"rule '{rule}': node must have one of designs, either or design"
  | manyRuleForms rule forms => s!"rule '{rule}': node has more than one form: {formsText forms}"
  | unknownKind name => s!"unknown document kind: '{name}'"
  | duplicateElement id => s!"Duplicate element id: {id}"
  | other => "other"

end Fault
end ThreatModel
