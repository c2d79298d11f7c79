import Mathlib.Data.List.TakeDrop
import Mathlib.Data.List.TakeWhile
import ThreatModel.Proofs.Expression.Grammar

/-!
# The numbers of expressions

The characters that a number token takes are digits and points. Main statements: such characters are read
as a decimal exactly if they are the text of a number, and the decimal is the one they stand for.
-/

namespace ThreatModel.Expression

/-! ## Characters that a class takes -/

/-- What follows does not start with a character of a class. -/
def Stops (isMember : Char → Bool) (rest : List Char) : Prop := ∀ c ∈ rest.head?, isMember c = false

theorem takeWhile_of_stops {isMember : Char → Bool} {text rest : List Char}
    (all : ∀ c ∈ text, isMember c = true) (stops : Stops isMember rest) :
    (text ++ rest).takeWhile isMember = text := by
  rw [List.takeWhile_append_of_pos all]
  cases rest with
  | nil => simp
  | cons c rest => simp [stops c rfl]

theorem dropWhile_of_stops {isMember : Char → Bool} {text rest : List Char}
    (all : ∀ c ∈ text, isMember c = true) (stops : Stops isMember rest) :
    (text ++ rest).dropWhile isMember = rest := by
  rw [List.dropWhile_append_of_pos all]
  cases rest with
  | nil => rfl
  | cons c rest => simp [stops c rfl]

theorem stops_dropWhile (isMember : Char → Bool) (text : List Char) :
    Stops isMember (text.dropWhile isMember) := by
  intro c head
  have failed := List.head?_dropWhile_not isMember text
  rw [Option.mem_def] at head
  simpa [head] using failed

/-! ## Reading decimals -/

theorem stops_point (rest : List Char) : Stops Decimal.isDigit ('.' :: rest) := by
  intro c head
  cases head
  decide

theorem stops_nil (isMember : Char → Bool) : Stops isMember [] := by
  intro c head
  cases head

/-- Digits are read as a whole number. -/
theorem ofUnsigned?_whole {digits : List Char} (negative : Bool) (run : Run Decimal.isDigit digits) :
    Decimal.ofUnsigned? negative digits = some ⟨negative, Decimal.value digits, 0⟩ := by
  have taken := takeWhile_of_stops run.2 (stops_nil Decimal.isDigit)
  have dropped := dropWhile_of_stops run.2 (stops_nil Decimal.isDigit)
  rw [List.append_nil] at taken dropped
  simp [Decimal.ofUnsigned?, List.span_eq_takeWhile_dropWhile, taken, dropped, run.1, Decimal.exponentOf?]

/-- Digits on both sides of a point are read with as many places as follow the point. -/
theorem ofUnsigned?_fraction {digits places : List Char} (negative : Bool)
    (run : Run Decimal.isDigit digits) (more : Run Decimal.isDigit places) :
    Decimal.ofUnsigned? negative (digits ++ '.' :: places) =
      some ⟨negative, Decimal.value (digits ++ places), -(places.length : Int)⟩ := by
  have taken := takeWhile_of_stops more.2 (stops_nil Decimal.isDigit)
  have dropped := dropWhile_of_stops more.2 (stops_nil Decimal.isDigit)
  rw [List.append_nil] at taken dropped
  simp [Decimal.ofUnsigned?, List.span_eq_takeWhile_dropWhile, takeWhile_of_stops run.2 (stops_point places),
    dropWhile_of_stops run.2 (stops_point places), taken, dropped, run.1, Decimal.exponentOf?]

/-- A minus sign before digits is read as the sign of the decimal. -/
theorem ofText?_minus (negative : Bool) {first : Char} (digit : Decimal.isDigit first = true)
    (rest : List Char) :
    Decimal.ofText? (minus negative ++ first :: rest) = Decimal.ofUnsigned? negative (first :: rest) := by
  cases negative with
  | true => rfl
  | false =>
    simp only [minus, List.nil_append, Bool.false_eq_true, if_false]
    unfold Decimal.ofText?
    split
    · rename_i same
      cases same
      exact absurd digit (by decide)
    · rename_i same
      cases same
      exact absurd digit (by decide)
    · rfl

/-- The text of a number is read as its decimal. -/
theorem ofText?_numeral {text : List Char} {decimal : Decimal} (numeral : Numeral text decimal) :
    Decimal.ofText? text = some decimal := by
  cases numeral with
  | @whole digits negative run =>
    obtain ⟨first, rest, rfl⟩ := List.exists_cons_of_ne_nil run.1
    rw [ofText?_minus negative (run.2 first (by simp)), ofUnsigned?_whole negative run]
  | @fraction digits places negative run more =>
    have read := ofUnsigned?_fraction negative run more
    obtain ⟨first, rest, rfl⟩ := List.exists_cons_of_ne_nil run.1
    rw [List.cons_append] at read ⊢
    rw [ofText?_minus negative (run.2 first (by simp)), read]

/-- Among digits and points, what is no digit is a point. -/
theorem eq_point {mark : Char} {rest : List Char} (taken : Token.isNumeral mark = true)
    (stops : Stops Decimal.isDigit (mark :: rest)) : mark = '.' := by
  have other : Decimal.isDigit mark = false := stops mark rfl
  simpa [Token.isNumeral, other] using taken

/-- A decimal text may end with an exponent, but no point starts one. -/
theorem exponentOf?_tail {tail : List Char} {exponent : Int} (all : ∀ c ∈ tail, Token.isNumeral c = true)
    (stops : Stops Decimal.isDigit tail) (read : Decimal.exponentOf? tail = some exponent) :
    tail = [] ∧ exponent = 0 := by
  cases tail with
  | nil => exact ⟨rfl, by simpa [Decimal.exponentOf?] using read.symm⟩
  | cons mark rest =>
    cases eq_point (all mark (by simp)) stops
    simp [Decimal.exponentOf?] at read

/-- Digits and points that start with a digit, do not end with a point and are read as a decimal are the
text of a number. -/
theorem numeral_of_ofUnsigned? {negative : Bool} {text : List Char} {decimal : Decimal}
    (first : ∃ c ∈ text.head?, Decimal.isDigit c = true) (all : ∀ c ∈ text, Token.isNumeral c = true)
    (last : text.getLast? ≠ some '.') (read : Decimal.ofUnsigned? negative text = some decimal) :
    Numeral (minus negative ++ text) decimal := by
  have whole : Run Decimal.isDigit (text.takeWhile Decimal.isDigit) := by
    refine ⟨?_, fun c => List.mem_takeWhile_imp⟩
    obtain ⟨c, head, digit⟩ := first
    cases text with
    | nil => cases head
    | cons d rest =>
      cases head
      simp [digit]
  have cut : text = text.takeWhile Decimal.isDigit ++ text.dropWhile Decimal.isDigit := by simp
  have stops := stops_dropWhile Decimal.isDigit text
  simp only [Decimal.ofUnsigned?, List.span_eq_takeWhile_dropWhile] at read
  generalize text.takeWhile Decimal.isDigit = digits at *
  generalize text.dropWhile Decimal.isDigit = tail at *
  subst cut
  cases tail with
  | nil =>
    simp [whole.1, Decimal.exponentOf?] at read
    subst read
    simpa using Numeral.whole negative whole
  | cons mark rest =>
    cases eq_point (all mark (by simp)) stops
    have cut : rest = rest.takeWhile Decimal.isDigit ++ rest.dropWhile Decimal.isDigit := by simp
    have ends := stops_dropWhile Decimal.isDigit rest
    have places : ∀ c ∈ rest.takeWhile Decimal.isDigit, Decimal.isDigit c = true :=
      fun c => List.mem_takeWhile_imp
    simp only at read
    generalize rest.takeWhile Decimal.isDigit = fraction at *
    generalize rest.dropWhile Decimal.isDigit = tail at *
    subst cut
    have nonempty : (digits.isEmpty && fraction.isEmpty) = false := by simp [whole.1]
    simp only [nonempty, Bool.false_eq_true, if_false, Option.bind_eq_bind, Option.bind_eq_some_iff,
      Option.some.injEq] at read
    obtain ⟨exponent, found, rfl⟩ := read
    obtain ⟨rfl, rfl⟩ := exponentOf?_tail (fun c member => all c (by simp [member])) ends found
    have some : fraction ≠ [] := by
      rintro rfl
      simp at last
    simpa using Numeral.fraction negative whole ⟨some, places⟩

end ThreatModel.Expression
