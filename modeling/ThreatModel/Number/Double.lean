/-!
# Double precision numbers

The binary64 numbers, infinities included and NaN left out: a number is its sign and its place among
the non-negative numbers in increasing order, which is also how its bits are laid out. Rounding takes
the nearest number, and of two equally near the one with the even last bit.
-/

namespace ThreatModel

/-- The place of infinity: the number of finite non-negative numbers. -/
def Double.infinitePlace : Nat := 0x7FF0000000000000

/-- A binary64 number that is not NaN. -/
structure Double where
  /-- Whether the sign is minus; zero has both signs. -/
  negative : Bool
  /-- The place of the magnitude among the non-negative numbers: zero is at 0. -/
  place : Nat
  place_le : place ≤ Double.infinitePlace
  deriving DecidableEq

namespace Double

/-- The zero with plus sign. -/
def zero : Double := ⟨false, 0, Nat.zero_le _⟩

instance : Inhabited Double := ⟨zero⟩

/-- The number at a place, and infinity beyond the last. -/
def atPlace (negative : Bool) (place : Nat) : Double :=
  ⟨negative, min place infinitePlace, Nat.min_le_right _ _⟩

/-- The infinity of a sign. -/
def infinity (negative : Bool) : Double := atPlace negative infinitePlace

def isFinite (x : Double) : Bool := x.place < infinitePlace

def isZero (x : Double) : Bool := x.place = 0

/-- The same magnitude with the other sign. -/
def neg (x : Double) : Double := { x with negative := !x.negative }

/-- The sixty-four bits of the number. -/
def bits (x : Double) : Nat := (if x.negative then Nat.pow 2 63 else 0) + x.place

/-- The significand of a finite number, whose magnitude is the significand times `2 ^ scale`. -/
def significand (x : Double) : Nat :=
  if x.place < Nat.pow 2 52 then x.place else Nat.pow 2 52 + x.place % Nat.pow 2 52

/-- The power of two by which the significand of a finite number is scaled. -/
def scale (x : Double) : Int := (max (x.place / Nat.pow 2 52) 1 : Nat) - 1075

/-! ## Order -/

/-- The place with its sign, in which numbers are ordered as their values are: both zeros are at 0. -/
def rank (x : Double) : Int := if x.negative then -(x.place : Int) else x.place

/-- Equality of values, for which the two zeros are equal. -/
def eqv (x y : Double) : Bool := x.rank = y.rank

/-- How the values of two numbers compare. -/
def compare (x y : Double) : Ordering := Ord.compare x.rank y.rank

/-! ## Rounding -/

/-- The quotient rounded to the nearest integer, a tie to the even one. -/
def roundDiv (num den : Nat) : Nat :=
  let quotient := num / den
  let rest := num % den
  if den < 2 * rest || (2 * rest = den && quotient % 2 = 1) then quotient + 1 else quotient

/-- The quotient of `num` and `den * 2 ^ scale`, rounded. -/
def roundScaled (num den : Nat) (scale : Int) : Nat :=
  if 0 ≤ scale then roundDiv num (den * Nat.pow 2 scale.toNat)
  else roundDiv (num * Nat.pow 2 (-scale).toNat) den

/-- The greatest power of two that is not above the positive ratio `num / den`. -/
def binade (num den : Nat) : Int :=
  let guess : Int := (num.log2 : Int) - den.log2
  let reached :=
    if 0 ≤ guess then den * Nat.pow 2 guess.toNat ≤ num else den ≤ num * Nat.pow 2 (-guess).toNat
  if reached then guess else guess - 1

/-- The number nearest to the ratio `num / den`, where `den` is positive. -/
def ofRatio (negative : Bool) (num den : Nat) : Double :=
  if num = 0 then atPlace negative 0
  else
    let scale := max (binade num den - 52) (-1074)
    atPlace negative ((scale + 1074).toNat * Nat.pow 2 52 + roundScaled num den scale)

/-- The number nearest to a natural number. -/
def ofNat (n : Nat) : Double := ofRatio false n 1

/-- The number nearest to an integer; zero has plus sign. -/
def ofInt (n : Int) : Double := ofRatio (n < 0) n.natAbs 1

/-- The number nearest to the product of two finite numbers. -/
def mul (x y : Double) : Double :=
  let significand := x.significand * y.significand
  let scale := x.scale + y.scale
  let negative := x.negative != y.negative
  if 0 ≤ scale then ofRatio negative (significand * Nat.pow 2 scale.toNat) 1
  else ofRatio negative significand (Nat.pow 2 (-scale).toNat)

/-- The number nearest to the quotient of two finite numbers, the second of which is not zero. -/
def div (x y : Double) : Double :=
  let scale := x.scale - y.scale
  let negative := x.negative != y.negative
  if 0 ≤ scale then ofRatio negative (x.significand * Nat.pow 2 scale.toNat) y.significand
  else ofRatio negative x.significand (y.significand * Nat.pow 2 (-scale).toNat)

/-! ## Laws -/

theorem eqv_refl (x : Double) : x.eqv x = true := by simp [eqv]

theorem eqv_comm (x y : Double) : x.eqv y = y.eqv x := by simp [eqv, eq_comm]

theorem compare_swap (x y : Double) : (x.compare y).swap = y.compare x := by
  have swapped : Ord.compare y.rank x.rank = (Ord.compare x.rank y.rank).swap := Std.OrientedOrd.eq_swap
  exact swapped.symm

theorem compare_eq_iff (x y : Double) : x.compare y = .eq ↔ x.eqv y = true := by
  simp [compare, eqv]

end Double
end ThreatModel
