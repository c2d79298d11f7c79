import ThreatModel.Number.Decimal
import ThreatModel.Yaml.Event
import ThreatModel.Node

/-!
# What scalars denote

The core schema of YAML: a plain scalar is null, a truth value, an integer, a number or a text by its
form. A scalar in quotes is a text. Which reading counts is up to the field that holds the scalar.
-/

namespace ThreatModel.Yaml.Schema

/-- The words for null. -/
def isNullWord (text : String) : Bool := text ∈ ["null", "Null", "NULL", "~"]

def truth? (text : String) : Option Bool :=
  if text ∈ ["true", "True", "TRUE"] then some true
  else if text ∈ ["false", "False", "FALSE"] then some false
  else none

/-! ## Numbers -/

/-- Whether a text is made of digits like a number but for a leading zero. -/
def isZeroPadded (text : List Char) : Bool :=
  let digits := match text with
    | '-' :: rest | '+' :: rest => rest
    | text => text
  1 < digits.length && digits.head? = some '0' && digits.all Decimal.isDigit

/-- The value of a digit in a base. -/
def digitValue? (base : Nat) (c : Char) : Option Nat :=
  let value :=
    if Decimal.isDigit c then Decimal.digitValue c
    else if 'a' ≤ c && c ≤ 'f' then c.toNat - 'a'.toNat + 10
    else if 'A' ≤ c && c ≤ 'F' then c.toNat - 'A'.toNat + 10
    else base
  if value < base then some value else none

/-- The number that digits of a base denote. -/
def inBase? (base : Nat) (digits : List Char) : Option Nat :=
  if digits.isEmpty then none
  else digits.foldlM (fun number digit => (digitValue? base digit).map (number * base + ·)) 0

/-- The number that an unsigned text denotes. -/
def magnitude? : List Char → Option Nat
  | '0' :: 'x' :: digits => inBase? 16 digits
  | '0' :: 'o' :: digits => inBase? 8 digits
  | '0' :: 'b' :: digits => inBase? 2 digits
  | digits => if isZeroPadded digits then none else inBase? 10 digits

/-- The sign and the magnitude of an integer. -/
def integer? : List Char → Option (Bool × Nat)
  | '-' :: rest => (magnitude? rest).map fun n => (true, n)
  | '+' :: rest => (magnitude? rest).map fun n => (false, n)
  | text => (magnitude? text).map fun n => (false, n)

/-- The datum of an integer: it must fit sixty-four bits, and beyond a hundred and twenty-eight it is not
taken for an integer at all. -/
def integerDatum? (text : List Char) : Option (Except Fault Datum) :=
  match integer? text with
  | none => none
  | some (negative, n) =>
    let bits := if negative then 63 else 64
    if n < Nat.pow 2 bits || (negative && n = Nat.pow 2 63) then
      some (.ok (.int (if negative then -(n : Int) else n)))
    else if n < Nat.pow 2 (bits + 64) || (negative && n = Nat.pow 2 127) then some (.error .wrongType)
    else none

/-- The words for infinity, after the sign. -/
def isInfinityWord (text : List Char) : Bool :=
  text ∈ [".inf".toList, ".Inf".toList, ".INF".toList]

/-- The words for what is not a number. -/
def isNanWord (text : List Char) : Bool :=
  text ∈ [".nan".toList, ".NaN".toList, ".NAN".toList]

/-- The number that digits with a point or an exponent denote, if it is finite. -/
def finite? (text : List Char) : Option Datum :=
  match Double.ofText? text with
  | some x => if x.isFinite then some (.double x) else none
  | none => none

/-- The number that a text denotes, which may be infinite or no number. -/
def double? (text : List Char) : Option Datum :=
  if isNanWord text then some .nan
  else match text with
    | '+' :: rest =>
      if isInfinityWord rest then some (.double (.infinity false))
      else if rest.head? = some '+' || rest.head? = some '-' then none
      else finite? rest
    | '-' :: rest => if isInfinityWord rest then some (.double (.infinity true)) else finite? text
    | text => if isInfinityWord text then some (.double (.infinity false)) else finite? text

/-! ## Readings -/

/-- The datum of a plain scalar without a tag. -/
def plainDatum (text : String) : Except Fault Datum :=
  if text.isEmpty || isNullWord text then .ok .null
  else match truth? text with
    | some value => .ok (.truth value)
    | none => match integerDatum? text.toList with
      | some datum => datum
      | none =>
        if isZeroPadded text.toList then .ok (.text text)
        else .ok ((double? text.toList).getD (.text text))

def truthTag : Tag := .ofAscii "tag:yaml.org,2002:bool".toList
def integerTag : Tag := .ofAscii "tag:yaml.org,2002:int".toList
def numberTag : Tag := .ofAscii "tag:yaml.org,2002:float".toList
def nullTag : Tag := .ofAscii "tag:yaml.org,2002:null".toList

/-- Whether a tag is one of the document's own, which start with an exclamation mark. -/
def isLocal (tag : Tag) : Bool := Tag.mark.isPrefixOf tag

/-- The datum of a scalar. -/
def datum (tag : Option Tag) (style : Style) (text : String) : Except Fault Datum :=
  match tag with
  | none => if style = .plain then plainDatum text else .ok (.text text)
  | some tag =>
    if tag = truthTag then orFault ((truth? text).map .truth)
    else if tag = integerTag then (integerDatum? text.toList).getD (.error .other)
    else if tag = numberTag then orFault (double? text.toList)
    else if tag = nullTag then orFault (if isNullWord text then some .null else none)
    else if isLocal tag && style = .plain then plainDatum text
    else .ok (.text text)
where
  orFault : Option Datum → Except Fault Datum
    | some datum => .ok datum
    | none => .error .other

/-- Whether an optional field takes a scalar for an absent value. -/
def isNull (tag : Option Tag) (style : Style) (text : String) : Except Fault Bool :=
  if style ≠ .plain then .ok false
  else match tag with
    | none => .ok (text.isEmpty || isNullWord text)
    | some tag =>
      if tag = nullTag then (if isNullWord text then .ok true else .error .other)
      else .ok false

/-- The readings of a scalar. -/
def readings (tag : Option Tag) (style : Style) (text : String) : Scalar where
  text := some text
  truth := if style = .plain || (style = .literal && tag = some truthTag) then truth? text else none
  isNull := isNull tag style text
  vacant := style = .plain && text.isEmpty
  data := datum tag style text

/-- The name of a tag of the document's own; none if its bytes make no text. The exclamation mark alone is its own
name. -/
def localName? (tag : Option Tag) : Option String := do
  let tag ← tag
  if !isLocal tag then none
  let name := if tag = .mark then tag else tag.drop 1
  String.fromUTF8? (ByteArray.mk name.toArray)

/-- A node under its tag. -/
def tagged (tag : Option Tag) (node : Node) : Node :=
  match localName? tag with
  | some name => .tagged name node
  | none => node

/-- The node of a scalar. -/
def scalar (tag : Option Tag) (style : Style) (text : String) : Node :=
  match localName? tag with
  | some name => .tagged name (.scalar (readings none style text))
  | none => .scalar (readings tag style text)

end ThreatModel.Yaml.Schema
