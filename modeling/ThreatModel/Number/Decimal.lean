import ThreatModel.Number.Double

/-!
# Decimals and the numbers nearest to them

A decimal is a coefficient times a power of ten. Texts such as `-1.50` or `2e-3` denote decimals, and
a decimal is read as the number nearest to it.
-/

namespace ThreatModel

/-- A signed decimal: `coefficient * 10 ^ exponent`. -/
structure Decimal where
  negative : Bool
  coefficient : Nat
  exponent : Int
  deriving DecidableEq, Repr

namespace Decimal

/-- The characters `0` to `9`. -/
def isDigit (c : Char) : Bool := '0' ≤ c && c ≤ '9'

/-- The value of a digit. -/
def digitValue (c : Char) : Nat := c.toNat - '0'.toNat

/-- The number that digits denote when they follow those of `start`. -/
def valueFrom (start : Nat) : List Char → Nat
  | [] => start
  | c :: rest => valueFrom (start * 10 + digitValue c) rest

/-- The number that digits denote. -/
def value (digits : List Char) : Nat := valueFrom 0 digits

/-- The digits of a number, without leading zeros; zero is the digit `0`. -/
def digits (n : Nat) : List Char := Nat.toDigits 10 n

/-- The decimal digits needed to write a number. -/
def width (n : Nat) : Nat := (digits n).length

/-! ## Rounding to a double -/

/-- The number nearest to a decimal. Beyond four hundred places on either side of the point there is
nothing but infinity and zero, so powers of ten stay small. -/
def toDouble (d : Decimal) : Double :=
  let magnitude := (width d.coefficient : Int) + d.exponent
  if d.coefficient = 0 || magnitude < -400 then Double.atPlace d.negative 0
  else if 400 < magnitude then Double.infinity d.negative
  else if 0 ≤ d.exponent then Double.ofRatio d.negative (d.coefficient * Nat.pow 10 d.exponent.toNat) 1
  else Double.ofRatio d.negative d.coefficient (Nat.pow 10 (-d.exponent).toNat)

/-! ## Reading -/

/-- The exponent that ends a decimal text: nothing, or `e` with an optional sign and digits. -/
def exponentOf? : List Char → Option Int
  | [] => some 0
  | mark :: rest =>
    if mark = 'e' || mark = 'E' then
      let (negative, digits) := match rest with
        | '-' :: digits => (true, digits)
        | '+' :: digits => (false, digits)
        | digits => (false, digits)
      if digits.isEmpty || !digits.all isDigit then none
      else some (if negative then -(value digits : Int) else value digits)
    else none

/-- The decimal that an unsigned text denotes. Digits may be missing on one side of the point. -/
def ofUnsigned? (negative : Bool) (text : List Char) : Option Decimal :=
  let (whole, rest) := text.span isDigit
  let (fraction, tail) := match rest with
    | '.' :: after => after.span isDigit
    | rest => ([], rest)
  if whole.isEmpty && fraction.isEmpty then none
  else do
    let exponent ← exponentOf? tail
    some ⟨negative, value (whole ++ fraction), exponent - fraction.length⟩

/-- The decimal that a text denotes: an optional sign, digits with an optional point among them, and
an optional exponent. -/
def ofText? : List Char → Option Decimal
  | '-' :: rest => ofUnsigned? true rest
  | '+' :: rest => ofUnsigned? false rest
  | text => ofUnsigned? false text

end Decimal

/-- The number nearest to what a decimal text denotes. -/
def Double.ofText? (text : List Char) : Option Double :=
  (Decimal.ofText? text).map Decimal.toDouble

end ThreatModel
