import ThreatModel.Number.Decimal

/-!
# The shortest decimal of a number

The text of a number has the fewest digits that read back as the number, and of those the ones nearest
to it. How the digits are laid out around the point is up to the format that writes them.
-/

namespace ThreatModel.Shortest

/-- Digits of a positive finite number: the number is near `digits * 10 ^ exponent`. -/
structure Digits where
  digits : Nat
  exponent : Int
  deriving DecidableEq, Repr

/-- The magnitude of a finite number as a ratio. -/
def ratio (x : Double) : Nat × Nat :=
  if 0 ≤ x.scale then (x.significand * Nat.pow 2 x.scale.toNat, 1)
  else (x.significand, Nat.pow 2 (-x.scale).toNat)

/-- A bound on the digits before the point of a positive ratio, exceeded by no more than one; it is zero
or less for a ratio below one. -/
def pointOf (num den : Nat) : Int :=
  if den ≤ num then Decimal.width (num / den) else 2 - (Decimal.width (den / num) : Int)

/-- Whether digits read back as the magnitude of a number. -/
def readsBack (x : Double) (d : Digits) : Bool :=
  (Decimal.toDouble ⟨false, d.digits, d.exponent⟩).place = x.place

/-- The distance of digits from a ratio, in units of the ratio's denominator and of the digits' place. -/
def distance (num den : Nat) (d : Digits) : Nat :=
  let (here, there) :=
    if 0 ≤ d.exponent then (d.digits * Nat.pow 10 d.exponent.toNat * den, num)
    else (d.digits * den, num * Nat.pow 10 (-d.exponent).toNat)
  (here - there) + (there - here)

/-- The digits just below and just above a ratio on the grid of a power of ten. -/
def neighbours (num den : Nat) (exponent : Int) : Digits × Digits :=
  let below :=
    if 0 ≤ exponent then num / (den * Nat.pow 10 exponent.toNat)
    else num * Nat.pow 10 (-exponent).toNat / den
  (⟨below, exponent⟩, ⟨below + 1, exponent⟩)

/-- The nearer of the two neighbours that read back, if any. -/
def onGrid? (x : Double) (exponent : Int) : Option Digits :=
  let (num, den) := ratio x
  let (below, above) := neighbours num den exponent
  match readsBack x below, readsBack x above with
  | true, true => some (if distance num den below ≤ distance num den above then below else above)
  | true, false => some below
  | false, true => some above
  | false, false => none

/-- The first of the grids of `count` and more digits on which the number reads back. -/
def search (x : Double) (point : Int) : Nat → Nat → Digits
  | _, 0 => ⟨(ratio x).1, 0⟩
  | count, fuel + 1 =>
    match onGrid? x (point - count) with
    | some found => found
    | none => search x point (count + 1) fuel

/-- The shortest digits of a positive finite number. -/
def digits (x : Double) : Digits :=
  let (num, den) := ratio x
  let found := search x (pointOf num den) 1 18
  strip found.digits found.exponent 20
where
  /-- Digits without the zeros at their end. -/
  strip (digits : Nat) (exponent : Int) : Nat → Digits
    | 0 => ⟨digits, exponent⟩
    | fuel + 1 =>
      if digits ≠ 0 && digits % 10 = 0 then strip (digits / 10) (exponent + 1) fuel
      else ⟨digits, exponent⟩

/-! ## Layout -/

/-- How a format lays out the digits of a number. -/
structure Layout where
  /-- From how many digits before the point on an exponent is used, if ever. -/
  maxPoint : Option Int
  /-- From how many zeros after the point on an exponent is used, if ever. -/
  maxZeros : Option Int
  /-- Whether whole numbers end in `.0`. -/
  pointZero : Bool
  /-- The text of infinity. -/
  infinity : List Char

/-- Digits with the point after the first `point` of them, zeros filled in on either side. -/
def positional (layout : Layout) (digits : List Char) (point : Int) : List Char :=
  if point ≤ 0 then '0' :: '.' :: (List.replicate (-point).toNat '0' ++ digits)
  else
    let whole := digits.take point.toNat
    let fraction := digits.drop point.toNat
    let padded := whole ++ List.replicate (point.toNat - whole.length) '0'
    if fraction.isEmpty then padded ++ (if layout.pointZero then ['.', '0'] else [])
    else padded ++ '.' :: fraction

/-- Digits with the point after the first of them and an exponent. -/
def scientific (digits : List Char) (point : Int) : List Char :=
  let exponent := point - 1
  let mantissa := match digits with
    | [] => []
    | [single] => [single]
    | first :: rest => first :: '.' :: rest
  let sign := if exponent < 0 then ['-'] else []
  mantissa ++ 'e' :: (sign ++ Decimal.digits exponent.natAbs)

/-- The text of the magnitude of a number. -/
def magnitudeText (layout : Layout) (x : Double) : List Char :=
  if !x.isFinite then layout.infinity
  else if x.isZero then (if layout.pointZero then ['0', '.', '0'] else ['0'])
  else
    let found := digits x
    let text := Decimal.digits found.digits
    let point := (text.length : Int) + found.exponent
    if layout.maxPoint.any (· < point) || layout.maxZeros.any (· < -point) then scientific text point
    else positional layout text point

/-- The text of a number in a layout. -/
def text (layout : Layout) (x : Double) : List Char :=
  (if x.negative then ['-'] else []) ++ magnitudeText layout x

/-- Numbers in expressions: always positional, and whole numbers without a point. -/
def plain : Layout := ⟨none, none, false, "inf".toList⟩

/-- Numbers in data formats: positional up to sixteen digits before the point and four zeros after it,
and never without a point or an exponent. -/
def data : Layout := ⟨some 16, some 4, true, ".inf".toList⟩

end ThreatModel.Shortest
