import ThreatModel.Expression.Parser

/-!
# The grammar of expressions

Which texts stand for an operand, and which for an expression. Nothing here reads a text from left to
right: an expression is a text that can be cut into two operands with a sign between them and blanks
around each.
-/

namespace ThreatModel.Expression

/-- Some characters of a class, at least one. -/
def Run (isMember : Char → Bool) (text : List Char) : Prop :=
  text ≠ [] ∧ ∀ c ∈ text, isMember c = true

/-- Any number of blanks. -/
def Blanks (text : List Char) : Prop := ∀ c ∈ text, Text.isBlank c = true

/-- A capital letter, and then capitals, digits and underscores. -/
def VariableName : List Char → Prop
  | [] => False
  | first :: rest => Token.isUpper first = true ∧ ∀ c ∈ rest, Token.isNameRest c = true

/-- The text of segments: each is a point and the characters of its name. -/
inductive Dotted : List Char → List String → Prop
  | nil : Dotted [] []
  | cons {segment rest : List Char} {more : List String} (name : Run Token.isIdent segment)
      (others : Dotted rest more) : Dotted ('.' :: (segment ++ rest)) (String.ofList segment :: more)

/-- What stands between the quotes of a text literal, and the content that it stands for. A backslash takes
the next character with it; it is dropped before a quote and a backslash and kept before all others. -/
inductive Quoted : List Char → List Char → Prop
  | nil : Quoted [] []
  | plain {c : Char} {rest content : List Char} (quote : c ≠ '\'') (backslash : c ≠ '\\')
      (others : Quoted rest content) : Quoted (c :: rest) (c :: content)
  | dropped {c : Char} {rest content : List Char} (special : c = '\'' ∨ c = '\\')
      (others : Quoted rest content) : Quoted ('\\' :: c :: rest) (c :: content)
  | kept {c : Char} {rest content : List Char} (quote : c ≠ '\'') (backslash : c ≠ '\\')
      (others : Quoted rest content) : Quoted ('\\' :: c :: rest) ('\\' :: c :: content)

/-- The sign of a number. -/
def minus (negative : Bool) : List Char := if negative then ['-'] else []

/-- The text of a number, and the decimal that it stands for. -/
inductive Numeral : List Char → Decimal → Prop
  | whole {digits : List Char} (negative : Bool) (run : Run Decimal.isDigit digits) :
      Numeral (minus negative ++ digits) ⟨negative, Decimal.value digits, 0⟩
  | fraction {digits places : List Char} (negative : Bool) (run : Run Decimal.isDigit digits)
      (more : Run Decimal.isDigit places) :
      Numeral (minus negative ++ (digits ++ '.' :: places))
        ⟨negative, Decimal.value (digits ++ places), -(places.length : Int)⟩

/-- The text of an operand. A number stands for the double nearest to its decimal. -/
inductive Spells : List Char → Operand → Prop
  | path {text : List Char} {segments : List String} (nonempty : segments ≠ [])
      (dotted : Dotted text segments) : Spells ('$' :: text) (.path segments)
  | named {name text : List Char} {segments : List String} (valid : VariableName name)
      (dotted : Dotted text segments) : Spells (name ++ text) (.named (String.ofList name) segments)
  | dollarNamed {name text : List Char} {segments : List String} (valid : VariableName name)
      (dotted : Dotted text segments) : Spells ('$' :: (name ++ text)) (.named (String.ofList name) segments)
  | yes : Spells "true".toList (.literal (.truth true))
  | no : Spells "false".toList (.literal (.truth false))
  | number {text : List Char} {decimal : Decimal} (numeral : Numeral text decimal) :
      Spells text (.literal (.number decimal.toDouble))
  | text {body content : List Char} (quoted : Quoted body content) :
      Spells ('\'' :: (body ++ ['\''])) (.literal (.text (String.ofList content)))

/-- The text of a sign. -/
def signText : Sign → List Char
  | .compare op => op.text.toList
  | .bind => ['=']

/-- A text cut into two operands, the sign between them, and what stands around each. -/
structure Layout where
  before : List Char
  left : List Char
  beforeSign : List Char
  sign : List Char
  afterSign : List Char
  right : List Char
  after : List Char
  deriving DecidableEq, Repr

/-- The text that was cut. -/
def Layout.text (layout : Layout) : List Char :=
  layout.before ++ (layout.left ++ (layout.beforeSign ++ (layout.sign ++ (layout.afterSign ++
    (layout.right ++ layout.after)))))

/-- The parts of a text are the texts of two operands and of a sign, and blanks around each. -/
structure Layout.Spells (layout : Layout) (left : Operand) (sign : Sign) (right : Operand) : Prop where
  before : Blanks layout.before
  left : Expression.Spells layout.left left
  beforeSign : Blanks layout.beforeSign
  sign : layout.sign = signText sign
  afterSign : Blanks layout.afterSign
  right : Expression.Spells layout.right right
  after : Blanks layout.after

/-- The expression of two operands and a sign. A comparison has a comparison operator. A binding has the
binding sign, and exactly one of its operands is a variable without a path. -/
inductive Forms : ExpressionKind → Operand → Sign → Operand → Expression → Prop
  | comparison {left right : Operand} (op : Comparator) :
      Forms .design left (.compare op) right (.comparison left op right)
  | bindLeft {left right : Operand} {name : String} (target : left = .named name [])
      (source : ∀ other, right ≠ .named other []) : Forms .binding left .bind right (.binding name right)
  | bindRight {left right : Operand} {name : String} (target : right = .named name [])
      (source : ∀ other, left ≠ .named other []) : Forms .binding left .bind right (.binding name left)

/-- A way to cut a text shows that it is an expression. -/
structure Denotes (text : List Char) (kind : ExpressionKind) (layout : Layout) (expression : Expression) :
    Prop where
  text_eq : layout.text = text
  parts : ∃ left sign right, layout.Spells left sign right ∧ Forms kind left sign right expression

end ThreatModel.Expression
