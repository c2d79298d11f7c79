import ThreatModel.Expression.Operand

/-!
# Why an expression does not parse

Offsets count the bytes of the expression's UTF-8 form.
-/

namespace ThreatModel

inductive ParseError
  | empty
  | unexpectedChar (char : Char) (offset : Nat)
  | unterminatedString (offset : Nat)
  | invalidOperand (text : String) (offset : Nat)
  | invalidNumber (text : String)
  | expectedOperand (offset : Nat)
  | expectedOperator (offset : Nat)
  | trailingInput (offset : Nat)
  /-- A binding sign where a comparison is wanted. -/
  | assignmentInDesign
  /-- A comparison operator where a binding is wanted. -/
  | comparisonInBinding (op : Comparator)
  /-- Both sides of a binding are variable names. -/
  | ambiguousBinding
  /-- Neither side of a binding is a variable name. -/
  | missingBindingTarget
  deriving DecidableEq, Repr

namespace ParseError

/-- Whether the text itself is at fault, and not the use that is made of it. -/
def isStructural : ParseError → Bool
  | assignmentInDesign | comparisonInBinding _ | ambiguousBinding | missingBindingTarget => false
  | _ => true

def message : ParseError → String
  | empty => "expression is empty"
  | unexpectedChar char offset => s!"unexpected character '{char}' at offset {offset}"
  | unterminatedString offset => s!"unterminated string literal starting at offset {offset}"
  | invalidOperand text offset => s!"invalid operand '{text}' at offset {offset}"
  | invalidNumber text => s!"invalid number literal '{text}'"
  | expectedOperand offset => s!"expected an operand at offset {offset}"
  | expectedOperator offset => s!"expected a comparison operator at offset {offset}"
  | trailingInput offset => s!"unexpected trailing input at offset {offset}"
  | assignmentInDesign => "'=' is only allowed in variable bindings"
  | comparisonInBinding op => s!"variable bindings must use '=', found '{op.text}'"
  | ambiguousBinding => "both sides of the binding are variable names"
  | missingBindingTarget => "binding has no variable name on either side"

end ParseError
end ThreatModel
