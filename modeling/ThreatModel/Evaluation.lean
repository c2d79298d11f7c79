import ThreatModel.Scope
import ThreatModel.Expression.Parser

/-!
# Evaluating expressions

An expression is parsed each time it is evaluated. Its operands are resolved from left to right, so
that of two unbound variables the left one is reported.
-/

namespace ThreatModel

namespace Operand

/-- The value of an operand, in a context and as seen from a block. -/
def resolve (scope : Scope) (context : Context) (block : BlockId) : Operand → Except EvalError Value
  | path segments => .ok (Value.ofPath context segments)
  | named name segments => do
    let value ← scope.resolve name block
    return value.walk context.diagram segments
  | literal value => .ok (Value.ofLiteral value)

end Operand

namespace Scope

/-- Whether a text is a condition. -/
def accepts (text : String) : Bool :=
  match Expression.parse text .design with
  | .ok _ => true
  | .error _ => false

/-- Whether a condition holds. -/
def evaluate (scope : Scope) (text : String) (context : Context) (block : BlockId) : Except EvalError Bool :=
  match Expression.parse text .design with
  | .error fault => .error (.invalid fault)
  | .ok (.binding _ _) => .error (.invalid .assignmentInDesign)
  | .ok (.comparison left op right) => do
    let left ← left.resolve scope context block
    let right ← right.resolve scope context block
    left.compare op right

/-- Adds the binding that a text describes to a block. -/
def bindVariable (scope : Scope) (text : String) (context : Context) (block : BlockId) :
    Except EvalError Scope :=
  match Expression.parse text .binding with
  | .error fault => .error (.invalid fault)
  | .ok (.comparison _ _ _) => .error (.invalid .missingBindingTarget)
  | .ok (.binding name source) => do
    let value ← source.resolve scope context block
    scope.register name value block

end Scope
end ThreatModel
