import ThreatModel.Proofs.Expression.Numeral
import ThreatModel.Proofs.Value.Mirror

/-!
# The operators on single values

Equality is strict about types and order is not. Main statement: two values are ordered exactly if both are texts or
both count as numbers; then one of less, greater, and both at most and at least holds. Otherwise no order holds. On
values of one type equality is what order says it is.
-/

namespace ThreatModel

namespace Value
open Expression (Run Numeral minus Stops takeWhile_of_stops dropWhile_of_stops)

/-! ## Values that count as numbers -/

/-- A text counts as a number if nothing is left of it without the blanks around it, or a number. -/
def TextCounts (text : String) : Prop :=
  Text.trim text.toList = [] ∨ ∃ decimal, Numeral (Text.trim text.toList) decimal

/-- The values that count as numbers in an order. -/
def Counts : Value → Prop
  | json .null | json (.truth _) | json (.int _) | json (.double _) => True
  | json (.text content) => TextCounts content
  | _ => False

theorem isDigits_iff {part : List Char} : isNumeric.isDigits part = true ↔ Run Decimal.isDigit part := by
  simp [isNumeric.isDigits, Run]

/-- What follows the sign of a text, if it has one. -/
def unsigned : List Char → List Char
  | '-' :: rest => rest
  | text => text

/-- Whether digits, or digits on both sides of a point, are all that a text has. -/
def isUnsignedNumeric (text : List Char) : Bool :=
  match text.dropWhile (· ≠ '.') with
  | [] => isNumeric.isDigits (text.takeWhile (· ≠ '.'))
  | _ :: fraction => isNumeric.isDigits (text.takeWhile (· ≠ '.')) && isNumeric.isDigits fraction

theorem isNumeric_eq (text : List Char) : isNumeric text = isUnsignedNumeric (unsigned text) := rfl

theorem ne_point_of_isDigit {c : Char} (digit : Decimal.isDigit c = true) : decide (c ≠ '.') = true := by
  rw [decide_eq_true_eq]
  rintro rfl
  exact absurd digit (by decide)

theorem isUnsignedNumeric_iff {text : List Char} :
    isUnsignedNumeric text = true ↔ Run Decimal.isDigit text ∨
      ∃ digits places, text = digits ++ '.' :: places ∧ Run Decimal.isDigit digits ∧ Run Decimal.isDigit places := by
  constructor
  · intro numeric
    have cut : text.takeWhile (· ≠ '.') ++ text.dropWhile (· ≠ '.') = text := List.takeWhile_append_dropWhile
    unfold isUnsignedNumeric at numeric
    split at numeric
    · rename_i whole
      rw [whole, List.append_nil] at cut
      exact .inl (cut ▸ isDigits_iff.mp numeric)
    · rename_i mark fraction tail
      obtain ⟨digits, places⟩ := Bool.and_eq_true_iff.mp numeric
      have point : mark = '.' := by
        have stops := Expression.stops_dropWhile (fun c => decide (c ≠ '.')) text mark (by rw [tail]; rfl)
        simpa using stops
      rw [tail, point] at cut
      exact .inr ⟨_, _, cut.symm, isDigits_iff.mp digits, isDigits_iff.mp places⟩
  · rintro (run | ⟨digits, places, rfl, run, more⟩)
    · have all : ∀ c ∈ text, decide (c ≠ '.') = true := fun c member => ne_point_of_isDigit (run.2 c member)
      have taken := takeWhile_of_stops all (Expression.stops_nil _)
      have left := dropWhile_of_stops all (Expression.stops_nil _)
      rw [List.append_nil] at taken left
      rw [isUnsignedNumeric, left, taken]
      exact isDigits_iff.mpr run
    · have all : ∀ c ∈ digits, decide (c ≠ '.') = true := fun c member => ne_point_of_isDigit (run.2 c member)
      have point : Stops (fun c => decide (c ≠ '.')) ('.' :: places) := by
        intro c head
        cases head
        rfl
      rw [isUnsignedNumeric, dropWhile_of_stops all point, takeWhile_of_stops all point]
      exact Bool.and_eq_true_iff.mpr ⟨isDigits_iff.mpr run, isDigits_iff.mpr more⟩

theorem exists_minus (text : List Char) : ∃ negative, text = minus negative ++ unsigned text := by
  unfold unsigned
  split
  · exact ⟨true, rfl⟩
  · exact ⟨false, rfl⟩

theorem unsigned_minus (negative : Bool) {digits : List Char} (run : Run Decimal.isDigit digits) (rest : List Char) :
    unsigned (minus negative ++ (digits ++ rest)) = digits ++ rest := by
  cases negative with
  | true => rfl
  | false =>
    obtain ⟨first, others, rfl⟩ := List.exists_cons_of_ne_nil run.1
    show unsigned (first :: (others ++ rest)) = _
    unfold unsigned
    split
    · rename_i same
      cases same
      exact absurd (run.2 '-' List.mem_cons_self) (by decide)
    · rfl

/-- What is recognised as a number is the text of one. -/
theorem isNumeric_iff {text : List Char} : isNumeric text = true ↔ ∃ decimal, Numeral text decimal := by
  rw [isNumeric_eq, isUnsignedNumeric_iff]
  constructor
  · intro numeric
    obtain ⟨negative, signed⟩ := exists_minus text
    rcases numeric with run | ⟨digits, places, cut, run, more⟩
    · rw [signed]
      exact ⟨_, .whole negative run⟩
    · rw [signed, cut]
      exact ⟨_, .fraction negative run more⟩
  · rintro ⟨decimal, numeral⟩
    cases numeral with
    | @whole digits negative run =>
      have rest := unsigned_minus negative run []
      rw [List.append_nil] at rest
      rw [rest]
      exact .inl run
    | @fraction digits places negative run more =>
      exact .inr ⟨digits, places, unsigned_minus negative run _, run, more⟩

theorem textNumber?_isSome {text : String} : (textNumber? text).isSome = true ↔ TextCounts text := by
  unfold textNumber? TextCounts
  by_cases blank : Text.trim text.toList = []
  · simp [blank]
  · by_cases numeric : isNumeric (Text.trim text.toList) = true
    · obtain ⟨decimal, numeral⟩ := isNumeric_iff.mp numeric
      have read := Expression.ofText?_numeral numeral
      have counts : ∃ decimal, Numeral (Text.trim text.toList) decimal := ⟨decimal, numeral⟩
      simp [blank, numeric, Double.ofText?, read, counts]
    · have other : ¬ ∃ decimal, Numeral (Text.trim text.toList) decimal := fun numeral =>
        numeric (isNumeric_iff.mpr numeral)
      simp [blank, numeric, other]

/-- The values that count as numbers are those that have a number. -/
theorem number?_isSome {value : Value} : value.number?.isSome = true ↔ value.Counts := by
  cases value with
  | json data =>
    cases data with
    | text content => exact textNumber?_isSome
    | _ => simp [number?, Counts]
  | _ => simp [number?, Counts]

/-! ## Orders between single values -/

/-- A value that is neither undefined nor a list. -/
def isSingle : Value → Bool
  | undefined | list _ => false
  | _ => true

/-- Single values that are ordered: two texts, or two values that count as numbers. -/
def Ordered (left right : Value) : Prop :=
  (∃ a b, left = json (.text a) ∧ right = json (.text b)) ∨ (left.Counts ∧ right.Counts)

/-- The types of data that are not made of other data. -/
inductive ScalarType
  | null
  | truth
  | number
  | text
  deriving DecidableEq, Repr

def scalarType? : Value → Option ScalarType
  | json .null => some .null
  | json (.truth _) => some .truth
  | json (.int _) | json (.double _) => some .number
  | json (.text _) => some .text
  | _ => none

variable {left right : Value}

theorem order?_isSome : (order? left right).isSome = true ↔ Ordered left right := by
  unfold Ordered
  by_cases texts : ∃ a b, left = json (.text a) ∧ right = json (.text b)
  · obtain ⟨a, b, rfl, rfl⟩ := texts
    exact iff_of_true rfl (.inl ⟨a, b, rfl, rfl⟩)
  · rw [order?_of_not_texts fun a b first second => texts ⟨a, b, first, second⟩, ← number?_isSome, ← number?_isSome,
      or_iff_right texts]
    cases left.number? <;> cases right.number? <;> simp

theorem compare_of_isSingle (single : left.isSingle = true) (single' : right.isSingle = true) (op : Comparator) :
    left.compare op right = .ok (compareScalar left op right) := by
  cases left with
  | undefined | list _ => cases single
  | _ =>
    cases right with
    | undefined | list _ => cases single'
    | _ => rfl

theorem isUndefined_of_isSingle {value : Value} (single : value.isSingle = true) : value.isUndefined = false := by
  cases value with
  | undefined => cases single
  | _ => rfl

/-- Whether an operator holds of single values: two of the operators ask for equality, and the others for an order. -/
theorem compareScalar_of_isSingle (single : left.isSingle = true) (single' : right.isSingle = true)
    (op : Comparator) :
    compareScalar left op right = match op with
      | .eq => equal left right
      | .ne => !equal left right
      | op => (order? left right).any (accepts op) := by
  unfold compareScalar
  rw [isUndefined_of_isSingle single, isUndefined_of_isSingle single']
  rfl

theorem eqv_iff_compare (x y : Double) : x.eqv y = true ↔ some (x.compare y) = some .eq := by
  rw [Option.some_inj, Double.compare_eq_iff]

/-- On values of one type equality is what order says it is. -/
theorem equal_iff_order? {type : ScalarType} (same : left.scalarType? = some type)
    (same' : right.scalarType? = some type) : equal left right = true ↔ order? left right = some .eq := by
  unfold scalarType? at same same'
  split at same
  · split at same' <;> cases same.trans same'.symm
    exact iff_of_true rfl rfl
  · rename_i a
    split at same' <;> cases same.trans same'.symm
    rename_i b
    cases a <;> cases b <;> decide
  · split at same' <;> cases same.trans same'.symm
    · exact eqv_iff_compare _ _
    · exact eqv_iff_compare _ _
  · split at same' <;> cases same.trans same'.symm
    · exact eqv_iff_compare _ _
    · exact eqv_iff_compare _ _
  · rename_i a
    split at same' <;> cases same.trans same'.symm
    rename_i b
    simp [equal, jsonNumber?, Json.same, order?]
  · cases same

/-! ## Coherence -/

/-- Which operators hold of two values, where their answers agree with one another. -/
structure Coherent (left right : Value) (holds : Comparator → Bool) : Prop where
  unequal : holds .ne = !holds .eq
  unordered : (holds .lt = false ∧ holds .le = false ∧ holds .ge = false ∧ holds .gt = false) ↔ ¬ Ordered left right
  /-- Of ordered values one of three is said: less, greater, or at most and at least at once. -/
  single : Ordered left right → [holds .lt, holds .gt, holds .le && holds .ge].count true = 1
  atMost : Ordered left right → holds .le = !holds .gt
  atLeast : Ordered left right → holds .ge = !holds .lt
  equal : ∀ type, left.scalarType? = some type → right.scalarType? = some type →
    (holds .eq = true ↔ holds .le = true ∧ holds .ge = true)

/-- An order is asked for by less, by greater, or by at most and at least, and the latter exclude the former. -/
theorem accepts_cases (order : Ordering) :
    [accepts .lt order, accepts .gt order, accepts .le order && accepts .ge order].count true = 1 ∧
      accepts .le order = !accepts .gt order ∧ accepts .ge order = !accepts .lt order ∧
      (some order = some .eq ↔ accepts .le order = true ∧ accepts .ge order = true) := by
  cases order <;> decide

/-- Two values that are neither undefined nor lists can be compared, and their comparisons agree with one another. -/
theorem comparisons_cohere (single : left.isSingle = true) (single' : right.isSingle = true) :
    ∃ holds, (∀ op, left.compare op right = .ok (holds op)) ∧ Coherent left right holds := by
  refine ⟨fun op => compareScalar left op right, compare_of_isSingle single single', ?_⟩
  simp only [compareScalar_of_isSingle single single']
  cases shown : order? left right with
  | none =>
    have apart : ¬ Ordered left right := by
      rw [← order?_isSome, shown]
      exact Bool.false_ne_true
    refine ⟨rfl, iff_of_true ⟨rfl, rfl, rfl, rfl⟩ apart, fun ordered => absurd ordered apart,
      fun ordered => absurd ordered apart, fun ordered => absurd ordered apart, ?_⟩
    intro type same same'
    rw [equal_iff_order? same same', shown]
    exact iff_of_false (Option.some_ne_none _).symm fun both => Bool.false_ne_true both.1
  | some order =>
    have ordered : Ordered left right := by
      rw [← order?_isSome, shown]
      rfl
    obtain ⟨one, atMost, atLeast, equal⟩ := accepts_cases order
    refine ⟨rfl, iff_of_false ?_ (not_not_intro ordered), fun _ => one, fun _ => atMost, fun _ => atLeast, ?_⟩
    · rintro ⟨-, notAtMost, -, notGreater⟩
      have greater := atMost.symm.trans notAtMost
      simp only [Bool.not_eq_false'] at greater
      exact Bool.false_ne_true (notGreater.symm.trans greater)
    · intro type same same'
      rw [equal_iff_order? same same', shown]
      exact equal

/-- A text with blanks around a number is less than a truth value, and a text with an exponent is in no order with an
integer. -/
theorem comparisons_cohere_texts :
    Ordered (json (.text " -2.5 ")) (json (.truth true)) ∧
      (∃ holds, (∀ op, (json (.text " -2.5 ")).compare op (json (.truth true)) = .ok (holds op)) ∧
        Coherent (json (.text " -2.5 ")) (json (.truth true)) holds) ∧
      ¬ Ordered (json (.text "1e9")) (json (.int 5)) ∧
      ∃ holds, (∀ op, (json (.text "1e9")).compare op (json (.int 5)) = .ok (holds op)) ∧
        Coherent (json (.text "1e9")) (json (.int 5)) holds :=
  ⟨order?_isSome.mp (by decide +kernel), comparisons_cohere rfl rfl, mt order?_isSome.mpr (by decide +kernel),
    comparisons_cohere rfl rfl⟩

end Value
end ThreatModel
