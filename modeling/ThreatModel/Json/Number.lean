import ThreatModel.Number.Decimal
import ThreatModel.Node

/-!
# Numbers of JSON texts

An integer that fits sixty-four bits is held exactly. Any other number is read from the digits that
fit sixty-four bits, scaled by a power of ten; both the digits and the scaling are rounded, so that the
result of a long number may be a neighbour of the nearest one.
-/

namespace ThreatModel.Json.Number

/-- The greatest significand that is read exactly. -/
def maxSignificand : Nat := Nat.pow 2 64 - 1

/-- The greatest exponent that can be written. -/
def maxExponent : Nat := Nat.pow 2 31 - 1

/-- Takes digits into a significand as long as it fits; also gives how many digits were taken. -/
def absorb (significand taken : Nat) : List Char → Nat × Nat
  | [] => (significand, taken)
  | c :: rest =>
    let next := significand * 10 + Decimal.digitValue c
    if maxSignificand < next then (significand, taken) else absorb next (taken + 1) rest

/-- The power of ten nearest to `10 ^ n`. -/
def power (n : Nat) : Double := Double.ofNat (Nat.pow 10 n)

/-- Scales a number by a power of ten, in steps of at most 308 places; `none` beyond the greatest number. -/
def scale? (x : Double) (exponent : Int) : Nat → Option Double
  | 0 => some x
  | steps + 1 =>
    if exponent.natAbs ≤ 308 then
      if 0 ≤ exponent then
        let scaled := x.mul (power exponent.natAbs)
        if scaled.isFinite then some scaled else none
      else some (x.div (power exponent.natAbs))
    else if x.isZero then some x
    else if 0 ≤ exponent then none
    else scale? (x.div (power 308)) (exponent + 308) steps

/-- The node of a number with a sign, a significand and an exponent. -/
def ofParts (negative : Bool) (significand : Nat) (exponent : Int) : Node :=
  match scale? (Double.ofNat significand) exponent 4 with
  | some x => .scalar (.ofDatum (.double (if negative then x.neg else x)))
  | none => .unreadable

/-- The node of an integer whose digits were all taken. -/
def ofInteger (negative : Bool) (significand : Nat) : Node :=
  if !negative then .scalar (.ofDatum (.int significand))
  else if significand = 0 || Nat.pow 2 63 < significand then
    .scalar (.ofDatum (.double (Double.ofNat significand).neg))
  else .scalar (.ofDatum (.int (-(significand : Int))))

/-- Reads the exponent after its mark. -/
def readExponent (negative : Bool) (significand : Nat) (exponent : Int) (text : List Char) :
    Node × Option (List Char) :=
  let (below, text) := match text with
    | '+' :: rest => (false, rest)
    | '-' :: rest => (true, rest)
    | rest => (false, rest)
  let digits := text.takeWhile Decimal.isDigit
  let rest := text.dropWhile Decimal.isDigit
  if digits.isEmpty then (.cut, none)
  else
    let written := Decimal.value digits
    if maxExponent < written then
      if significand ≠ 0 && !below then (.unreadable, some rest)
      else (.scalar (.ofDatum (.double (Double.atPlace negative 0))), some rest)
    else
      let exponent := if below then exponent - written else exponent + written
      (ofParts negative significand exponent, some rest)

/-- Reads what may follow the digits before the point and those after it. -/
def readEnd (negative : Bool) (significand : Nat) (exponent : Int) (text : List Char) :
    Node × Option (List Char) :=
  match text with
  | c :: rest =>
    if c = 'e' || c = 'E' then readExponent negative significand exponent rest
    else (ofParts negative significand exponent, some text)
  | [] => (ofParts negative significand exponent, some [])

/-- Reads the digits after the point. -/
def readFraction (negative : Bool) (significand : Nat) (exponent : Int) (text : List Char) :
    Node × Option (List Char) :=
  let digits := text.takeWhile Decimal.isDigit
  if digits.isEmpty then (.cut, none)
  else
    let (significand, taken) := absorb significand 0 digits
    readEnd negative significand (exponent - taken) (text.dropWhile Decimal.isDigit)

/-- Reads a number after its sign. -/
def readUnsigned (negative : Bool) (text : List Char) : Node × Option (List Char) :=
  let digits := text.takeWhile Decimal.isDigit
  let rest := text.dropWhile Decimal.isDigit
  if digits.isEmpty || (digits.head? = some '0' && 1 < digits.length) then (.cut, none)
  else
    let (significand, taken) := absorb 0 0 digits
    let left := digits.length - taken
    match rest with
    | '.' :: rest => readFraction negative significand left rest
    | c :: _ =>
      if c = 'e' || c = 'E' then readEnd negative significand left rest
      else if left = 0 then (ofInteger negative significand, some rest)
      else (ofParts negative significand left, some rest)
    | [] =>
      if left = 0 then (ofInteger negative significand, some [])
      else (ofParts negative significand left, some [])

/-- Reads a number; the rest is `none` where the text breaks off. -/
def read : List Char → Node × Option (List Char)
  | '-' :: rest => readUnsigned true rest
  | text => readUnsigned false text

end ThreatModel.Json.Number
