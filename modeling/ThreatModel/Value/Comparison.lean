import ThreatModel.Value
import ThreatModel.Text.Blank
import ThreatModel.Expression.ParseError

/-!
# Comparing values

A list is compared item by item and the comparison holds if it holds for one of them; two lists do not
compare. Equality is strict about types, and nothing equals what is undefined. Order is that of texts
for two texts and that of numbers otherwise, where data that is no number takes part in no order.
-/

namespace ThreatModel

/-- The number of a block of bindings. -/
structure BlockId where
  number : Nat
  deriving DecidableEq, Repr

def BlockId.text (id : BlockId) : String := s!"#{id.number}"

/-- Why an expression has no answer. -/
inductive EvalError
  | invalid (fault : ParseError)
  | unboundVariable (name : String)
  | bothArrays
  | unknownBlock (id : BlockId)
  deriving DecidableEq, Repr

def EvalError.message : EvalError → String
  | invalid fault => s!"invalid expression: {fault.message}"
  | unboundVariable name => s!"unbound variable '{name}'"
  | bothArrays => "cannot compare two arrays"
  | unknownBlock id => s!"scope block {id.text} is not active"

namespace Value

/-! ## Equality -/

mutual
/-- Whether two values are the same. -/
def same : Value → Value → Bool
  | undefined, undefined => true
  | json left, json right => left.same right
  | element left, element right => left = right
  | relations left, relations right => left = right
  | list left, list right => sameItems left right
  | _, _ => false

def sameItems : List Value → List Value → Bool
  | [], [] => true
  | left :: lefts, right :: rights => same left right && sameItems lefts rights
  | _, _ => false
end

/-- The number that a JSON number is nearest to. -/
def jsonNumber? : Json → Option Double
  | .int value => some (.ofInt value)
  | .double value => some value
  | _ => none

/-- Equality as `==` means it: two numbers are equal if they are nearest to the same number. -/
def equal (left right : Value) : Bool :=
  match left, right with
  | json a, json b => match jsonNumber? a, jsonNumber? b with
    | some x, some y => x.eqv y
    | _, _ => a.same b
  | _, _ => left.same right

/-! ## Order -/

/-- Whether a text is a number: digits with an optional minus sign and an optional fraction. -/
def isNumeric (text : List Char) : Bool :=
  let unsigned := match text with
    | '-' :: rest => rest
    | text => text
  let whole := unsigned.takeWhile (· ≠ '.')
  match unsigned.dropWhile (· ≠ '.') with
  | [] => isDigits whole
  | _ :: fraction => isDigits whole && isDigits fraction
where
  isDigits (part : List Char) : Bool := !part.isEmpty && part.all Decimal.isDigit

/-- The number that a text counts as; blanks around it do not matter, and nothing counts as zero. -/
def textNumber? (text : String) : Option Double :=
  let trimmed := Text.trim text.toList
  if trimmed.isEmpty then some .zero
  else if isNumeric trimmed then Double.ofText? trimmed
  else none

/-- The number that a value counts as. -/
def number? : Value → Option Double
  | json .null => some .zero
  | json (.truth value) => some (if value then .ofNat 1 else .zero)
  | json (.text content) => textNumber? content
  | json (.int value) => some (.ofInt value)
  | json (.double value) => some value
  | _ => none

/-- How two values are ordered, if they are. -/
def order? (left right : Value) : Option Ordering :=
  match left, right with
  | json (.text a), json (.text b) => some (Ord.compare a b)
  | _, _ => match left.number?, right.number? with
    | some x, some y => some (x.compare y)
    | _, _ => none

/-! ## Comparison -/

/-- Whether an order between two values is one that an operator asks for. -/
def accepts (op : Comparator) (order : Ordering) : Bool :=
  match op, order with
  | .lt, .lt | .le, .lt | .le, .eq | .gt, .gt | .ge, .gt | .ge, .eq => true
  | _, _ => false

/-- Compares two values that are not taken item by item. -/
def compareScalar (left : Value) (op : Comparator) (right : Value) : Bool :=
  if left.isUndefined || right.isUndefined then false
  else match op with
    | .eq => equal left right
    | .ne => !equal left right
    | op => (order? left right).any (accepts op)

/-- Compares two values. -/
def compare (left : Value) (op : Comparator) (right : Value) : Except EvalError Bool :=
  match left, right with
  | list _, list _ => .error .bothArrays
  | list items, other => .ok (items.any (compareScalar · op other))
  | other, list items => .ok (items.any (compareScalar other op ·))
  | _, _ => .ok (compareScalar left op right)

end Value
end ThreatModel
