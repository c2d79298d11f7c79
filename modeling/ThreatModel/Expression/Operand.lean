import ThreatModel.Number.Shortest

/-!
# Expressions

A rule is made of two kinds of expression: a comparison of two operands, which holds or not, and a
binding, which gives an operand's value a name. An operand is a path into the element under
evaluation, a variable with an optional path, or a literal.
-/

namespace ThreatModel

/-- The six comparison operators. -/
inductive Comparator
  | eq | ne | lt | le | gt | ge
  deriving DecidableEq, Repr

namespace Comparator

def all : List Comparator := [eq, ne, lt, le, gt, ge]

def text : Comparator → String
  | eq => "=="
  | ne => "!="
  | lt => "<"
  | le => "<="
  | gt => ">"
  | ge => ">="

/-- The operator that holds of the swapped operands. -/
def swap : Comparator → Comparator
  | eq => eq
  | ne => ne
  | lt => gt
  | le => ge
  | gt => lt
  | ge => le

end Comparator

inductive Literal
  | text (content : String)
  | number (value : Double)
  | truth (value : Bool)
  deriving DecidableEq

inductive Operand
  /-- A path into the element under evaluation, such as `$.ssl.isSSL`. -/
  | path (segments : List String)
  /-- A variable and a path from its value, such as `ZONE.trust`. -/
  | named (name : String) (path : List String)
  | literal (value : Literal)
  deriving DecidableEq

/-- What an expression is used for. -/
inductive ExpressionKind
  /-- A condition, which compares. -/
  | design
  /-- A variable node, which binds. -/
  | binding
  deriving DecidableEq, Repr

inductive Expression
  | comparison (left : Operand) (op : Comparator) (right : Operand)
  | binding (name : String) (source : Operand)
  deriving DecidableEq

namespace Operand

/-- The name of a variable that stands without a path. -/
def bareVariable? : Operand → Option String
  | named name [] => some name
  | _ => none

/-- The name of the variable that an operand reads. -/
def variableName? : Operand → Option String
  | named name _ => some name
  | _ => none

/-! ## Text -/

/-- The content of a text literal with a backslash before each quote and backslash. -/
def escape : List Char → List Char
  | [] => []
  | c :: rest => if c = '\'' || c = '\\' then '\\' :: c :: escape rest else c :: escape rest

/-- The segments of a path, each after a point. -/
def dotted : List String → List Char
  | [] => []
  | segment :: rest => '.' :: (segment.toList ++ dotted rest)

/-- The characters of an operand as it is written in an expression. -/
def chars : Operand → List Char
  | path [] => ['$', '.']
  | path segments => '$' :: dotted segments
  | named name segments => name.toList ++ dotted segments
  | literal (.text content) => '\'' :: (escape content.toList ++ ['\''])
  | literal (.number value) => Shortest.text Shortest.plain value
  | literal (.truth true) => "true".toList
  | literal (.truth false) => "false".toList

/-- An operand as it is written in an expression. -/
def text (operand : Operand) : String := String.ofList operand.chars

end Operand
end ThreatModel
