import ThreatModel.Number.Decimal

/-!
# Reading counts

A count is written in decimal digits, with a plus sign or without, and has to fit into 64 bits.
-/

namespace ThreatModel.Natural

/-- The number after the greatest count. -/
def limit : Nat := Nat.pow 2 64

/-- The digits of a count, without its sign. -/
def unsigned : List Char → List Char
  | '+' :: digits => digits
  | digits => digits

/-- Reads a count. -/
def ofText? (text : String) : Option Nat :=
  let digits := unsigned text.toList
  let value := Decimal.value digits
  if !digits.isEmpty && digits.all Decimal.isDigit && value < limit then some value else none

end ThreatModel.Natural
