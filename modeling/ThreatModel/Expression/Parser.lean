import ThreatModel.Expression.Token

/-!
# Parsing an expression

An expression is an operand, an operator sign and another operand. As a condition it needs one of the
comparison operators; as a binding it needs the binding sign, with a bare variable on exactly one side.
-/

namespace ThreatModel.Expression

/-- The offset of the first of some lexemes, or the length of the text after the last. -/
def offsetOf (length : Nat) : List Lexeme → Nat
  | [] => length
  | lexeme :: _ => lexeme.offset

/-- Takes the operand that lexemes start with. -/
def takeOperand (length : Nat) : List Lexeme → Except ParseError (Operand × List Lexeme)
  | ⟨.operand operand, _⟩ :: rest => .ok (operand, rest)
  | rest => .error (.expectedOperand (offsetOf length rest))

/-- Takes the operator sign that lexemes start with. -/
def takeSign (length : Nat) : List Lexeme → Except ParseError (Sign × List Lexeme)
  | ⟨.sign sign, _⟩ :: rest => .ok (sign, rest)
  | rest => .error (.expectedOperator (offsetOf length rest))

/-- The two operands of an expression and the sign between them, in a text of a given length. -/
def shape (length : Nat) (lexemes : List Lexeme) : Except ParseError (Operand × Sign × Operand) :=
  if lexemes.isEmpty then .error .empty
  else do
    let (left, rest) ← takeOperand length lexemes
    let (sign, rest) ← takeSign length rest
    let (right, rest) ← takeOperand length rest
    if rest.isEmpty then .ok (left, sign, right) else .error (.trailingInput (offsetOf length rest))

/-- The binding of the one operand that is a bare variable to the other operand. -/
def bind (left right : Operand) : Except ParseError Expression :=
  match left.bareVariable?, right.bareVariable? with
  | some _, some _ => .error .ambiguousBinding
  | none, none => .error .missingBindingTarget
  | some name, none => .ok (.binding name right)
  | none, some name => .ok (.binding name left)

/-- The expression of two operands and a sign, for a use. -/
def ofShape (kind : ExpressionKind) (left : Operand) (sign : Sign) (right : Operand) :
    Except ParseError Expression :=
  match kind, sign with
  | .design, .bind => .error .assignmentInDesign
  | .design, .compare op => .ok (.comparison left op right)
  | .binding, .bind => bind left right
  | .binding, .compare op => .error (.comparisonInBinding op)

/-- The expression that characters denote, for a use. -/
def ofChars (text : List Char) (kind : ExpressionKind) : Except ParseError Expression := do
  let lexemes ← Token.scan 0 text
  let (left, sign, right) ← shape (Text.byteLength text) lexemes
  ofShape kind left sign right

/-- The expression that a text denotes, for a use. -/
def parse (text : String) (kind : ExpressionKind) : Except ParseError Expression :=
  ofChars text.toList kind

end ThreatModel.Expression
