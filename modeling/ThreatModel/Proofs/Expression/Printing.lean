import ThreatModel.Proofs.Expression.Parser
import ThreatModel.Proofs.Number.Shortest

/-!
# Printing an expression and parsing it again

An operand is printed with its path after points, with its backslashes and quotes escaped, or with the
shortest digits of its number. Main statements: what is printed of an operand is a text of that operand, and
an expression that was parsed is parsed again from the texts of its operands.
-/

namespace ThreatModel

/-- The number of an operand, if it is one, is finite. -/
def Operand.Finite : Operand → Prop
  | .literal (.number value) => value.isFinite = true
  | _ => True

namespace Expression

/-- Every number of an expression is finite. -/
def Finite : Expression → Prop
  | .comparison left _ right => left.Finite ∧ right.Finite
  | .binding _ source => source.Finite

/-- An expression is parsed again from the texts of its operands. A binding has its name on either side. -/
def Restored : Expression → Prop
  | .comparison left op right =>
    parse (left.text ++ " " ++ op.text ++ " " ++ right.text) .design = .ok (.comparison left op right)
  | .binding name source =>
    parse (name ++ " = " ++ source.text) .binding = .ok (.binding name source) ∧
      parse (source.text ++ " = " ++ name) .binding = .ok (.binding name source)

/-! ## Texts -/

/-- An escaped content stands for the content. -/
theorem quoted_escape (content : List Char) : Quoted (Operand.escape content) content := by
  induction content with
  | nil => exact .nil
  | cons c rest ih =>
    unfold Operand.escape
    by_cases special : c = '\'' ∨ c = '\\'
    · rw [if_pos (by simpa using special)]
      exact .dropped special ih
    · obtain ⟨quote, backslash⟩ := not_or.mp special
      rw [if_neg (by simpa using special)]
      exact .plain quote backslash ih

/-- Escaping in one pass doubles the backslashes and then puts one before each quote. -/
theorem escape_eq_flatMap (content : List Char) :
    Operand.escape content = (content.flatMap fun c => if c = '\\' then ['\\', '\\'] else [c]).flatMap
      fun c => if c = '\'' then ['\\', '\''] else [c] := by
  induction content with
  | nil => rfl
  | cons c rest ih =>
    rw [List.flatMap_cons, List.flatMap_append, ← ih, Operand.escape]
    by_cases backslash : c = '\\'
    · simp [backslash]
    · by_cases quote : c = '\''
      · simp [quote]
      · simp [backslash, quote]

/-! ## Paths -/

theorem dotted_eq {text : List Char} {segments : List String} (dotted : Dotted text segments) :
    Operand.dotted segments = text := by
  induction dotted with
  | nil => rfl
  | cons name others ih => simp [Operand.dotted, ih]

/-! ## Numbers -/

theorem valueFrom_cons (start : ℕ) (c : Char) (rest : List Char) :
    Decimal.valueFrom start (c :: rest) = Decimal.valueFrom (start * 10 + Decimal.digitValue c) rest := by
  -- Without the definition the starts would be compared first, which computes differences digit by digit.
  delta Decimal.valueFrom
  rfl

theorem valueFrom_eq (start : ℕ) (digits : List Char) :
    Decimal.valueFrom start digits = Nat.ofDigitChars 10 digits start := by
  induction digits generalizing start with
  | nil => exact Nat.ofDigitChars_nil.symm
  | cons c rest ih => rw [valueFrom_cons, ih, Nat.ofDigitChars_cons, Nat.mul_comm 10 start, Decimal.digitValue]

theorem value_digits (n : ℕ) : Decimal.value (Decimal.digits n) = n := by
  rw [Decimal.value, valueFrom_eq, Decimal.digits, Nat.ofDigitChars_ten_toDigits]

theorem value_zeros_append (count : ℕ) (digits : List Char) :
    Decimal.value (List.replicate count '0' ++ digits) = Decimal.value digits := by
  simp [Decimal.value, valueFrom_eq, Nat.ofDigitChars_append]

theorem value_append_zeros (digits : List Char) (count : ℕ) :
    Decimal.value (digits ++ List.replicate count '0') = Decimal.value digits * 10 ^ count := by
  simp [Decimal.value, valueFrom_eq, Nat.ofDigitChars_append, mul_comm]

theorem run_digits (n : ℕ) : Run Decimal.isDigit (Decimal.digits n) := by
  refine ⟨Nat.toDigits_ne_nil, fun c member => ?_⟩
  have digit := Nat.isDigit_of_mem_toDigits (by decide) (by decide) member
  simpa [Decimal.isDigit, Char.isDigit, Char.le_def] using digit

theorem isDigit_zeros (count : ℕ) : ∀ c ∈ List.replicate count '0', Decimal.isDigit c = true := by
  intro c member
  rw [List.eq_of_mem_replicate member]
  decide

/-- A text is that of a decimal of a sign and a magnitude. -/
def Writes (text : List Char) (negative : Bool) (magnitude : ℚ) : Prop :=
  ∃ decimal, Numeral text decimal ∧ decimal.negative = negative ∧ decimal.magnitude = magnitude

section Layouts

variable {digits : List Char} (run : Run Decimal.isDigit digits) (negative : Bool)

include run

/-- Digits behind the point, after zeros. -/
theorem writes_behind (zeros : ℕ) :
    Writes (minus negative ++ '0' :: '.' :: (List.replicate zeros '0' ++ digits)) negative
      (Decimal.value digits * 10 ^ (-(zeros + digits.length : ℤ))) := by
  have zero : Run Decimal.isDigit ['0'] := ⟨by simp, by simp; decide⟩
  have places : Run Decimal.isDigit (List.replicate zeros '0' ++ digits) :=
    ⟨by simp [run.1], List.forall_mem_append.mpr ⟨isDigit_zeros zeros, run.2⟩⟩
  refine ⟨_, .fraction negative zero places, rfl, ?_⟩
  have single : ['0'] = List.replicate 1 '0' := rfl
  rw [Decimal.magnitude, single, value_zeros_append, value_zeros_append, List.length_append,
    List.length_replicate, Nat.cast_add]

/-- Digits before the point, with zeros after them. -/
theorem writes_before (zeros : ℕ) :
    Writes (minus negative ++ (digits ++ List.replicate zeros '0')) negative
      (Decimal.value digits * 10 ^ (zeros : ℤ)) := by
  have whole : Run Decimal.isDigit (digits ++ List.replicate zeros '0') :=
    ⟨by simp [run.1], List.forall_mem_append.mpr ⟨run.2, isDigit_zeros zeros⟩⟩
  refine ⟨_, .whole negative whole, rfl, ?_⟩
  rw [Decimal.magnitude, value_append_zeros, zpow_zero, mul_one, Nat.cast_mul, Nat.cast_pow, zpow_natCast]
  rfl

/-- Digits on both sides of the point. -/
theorem writes_between {point : ℕ} (some : 0 < point) (fewer : point < digits.length) :
    Writes (minus negative ++ (digits.take point ++ '.' :: digits.drop point)) negative
      (Decimal.value digits * 10 ^ (-((digits.length - point : ℕ) : ℤ))) := by
  have whole : Run Decimal.isDigit (digits.take point) := by
    refine ⟨?_, fun c member => run.2 c (List.mem_of_mem_take member)⟩
    rw [← List.length_pos_iff, List.length_take]
    omega
  have places : Run Decimal.isDigit (digits.drop point) := by
    refine ⟨?_, fun c member => run.2 c (List.mem_of_mem_drop member)⟩
    rw [← List.length_pos_iff, List.length_drop]
    omega
  refine ⟨_, .fraction negative whole places, rfl, ?_⟩
  rw [Decimal.magnitude, List.take_append_drop, List.length_drop]

/-- Digits around which a point and zeros are laid out are the text of a number, and stand for what they
denoted. -/
theorem writes_positional (exponent : ℤ) :
    Writes (minus negative ++ Shortest.positional Shortest.plain digits (digits.length + exponent)) negative
      (Decimal.value digits * 10 ^ exponent) := by
  unfold Shortest.positional
  split
  · rename_i small
    have power : exponent = -(((-(digits.length + exponent)).toNat : ℤ) + digits.length) := by omega
    nth_rewrite 2 [power]
    exact writes_behind run negative _
  · rename_i large
    obtain ⟨point, at_point⟩ := Int.eq_ofNat_of_zero_le (Int.not_le.mp large).le
    rw [at_point, Int.toNat_natCast]
    dsimp only
    split
    · rename_i none
      have short : digits.length ≤ point := by simpa using none
      have power : exponent = ((point - digits.length : ℕ) : ℤ) := by omega
      rw [List.take_of_length_le short, if_neg (by decide), List.append_nil, power]
      exact writes_before run negative _
    · rename_i some
      have fewer : point < digits.length := by simpa using some
      have power : exponent = -((digits.length - point : ℕ) : ℤ) := by omega
      rw [List.length_take_of_le fewer.le, Nat.sub_self, List.replicate_zero, List.append_nil, power]
      exact writes_between run negative (by omega) fewer

end Layouts

/-- The text of a finite number is the text of a decimal that is read as the number. -/
theorem numeral_text {x : Double} (finite : x.isFinite = true) :
    ∃ decimal, Numeral (Shortest.text Shortest.plain x) decimal ∧ decimal.toDouble = x := by
  have shown : Shortest.text Shortest.plain x =
      minus x.negative ++ Shortest.magnitudeText Shortest.plain x := rfl
  rw [shown, Shortest.magnitudeText, finite]
  by_cases zero : x.place = 0
  · have isZero : x.isZero = true := by simpa [Double.isZero] using zero
    rw [isZero]
    have digit : Run Decimal.isDigit ['0'] := ⟨List.cons_ne_nil _ _, by simp; decide⟩
    refine ⟨_, .whole x.negative digit, ?_⟩
    cases x
    cases zero
    rfl
  · have isZero : x.isZero = false := by simpa [Double.isZero] using zero
    obtain ⟨decimal, numeral, sign, magnitude⟩ := writes_positional
      (run_digits (Shortest.digits x).digits) x.negative (Shortest.digits x).exponent
    rw [isZero]
    refine ⟨decimal, numeral, ?_⟩
    rw [value_digits] at magnitude
    rw [Decimal.toDouble_eq, sign, magnitude]
    exact Shortest.nearest_digits zero

/-! ## Operands -/

/-- What is printed of an operand that has a text is a text of that operand. -/
theorem spells_chars {text : List Char} {operand : Operand} (spells : Spells text operand)
    (finite : operand.Finite) : Spells operand.chars operand := by
  have named : ∀ {name text : List Char} {segments : List String}, VariableName name →
      Dotted text segments →
      Spells (Operand.named (String.ofList name) segments).chars (.named (String.ofList name) segments) := by
    intro name text segments valid dotted
    rw [Operand.chars, dotted_eq dotted, String.toList_ofList]
    exact .named valid dotted
  cases spells with
  | @path text segments nonempty dotted =>
    obtain ⟨first, rest, rfl⟩ := List.exists_cons_of_ne_nil nonempty
    rw [Operand.chars, dotted_eq dotted]
    · exact .path nonempty dotted
    · simp
  | named valid dotted => exact named valid dotted
  | dollarNamed valid dotted => exact named valid dotted
  | yes => exact .yes
  | no => exact .no
  | @number _ decimal numeral =>
    obtain ⟨printed, numeral, same⟩ := numeral_text finite
    have spells := Spells.number numeral
    rw [same] at spells
    exact spells
  | @text body content quoted =>
    rw [Operand.chars, String.toList_ofList]
    exact .text (quoted_escape content)

theorem text_toList (operand : Operand) : operand.text.toList = operand.chars := String.toList_ofList

/-! ## Expressions -/

/-- Two operands with a sign and single blanks between them are parsed as the expression that they form. -/
theorem parse_spaced {kind : ExpressionKind} {text : String} {left right : List Char} {l r : Operand}
    {sign : Sign} {expression : Expression} (leftSpells : Spells left l) (rightSpells : Spells right r)
    (cut : text.toList = left ++ ' ' :: (signText sign ++ ' ' :: right)) (forms : Forms kind l sign r expression) :
    parse text kind = .ok expression := by
  have blank : Blanks [' '] := List.forall_mem_singleton.mpr (by decide)
  have parts : Layout.Spells ⟨[], left, [' '], signText sign, [' '], right, []⟩ l sign r :=
    ⟨List.forall_mem_nil _, leftSpells, blank, rfl, blank, rightSpells, List.forall_mem_nil _⟩
  exact Spelled.parse ⟨_, by simp [Layout.text, cut], parts⟩ forms

/-- A binding is parsed again, on whichever side its name stands. -/
theorem restored_binding {nameText sourceText : List Char} {name : String} {source : Operand}
    (nameSpells : Spells nameText (.named name [])) (sourceSpells : Spells sourceText source)
    (finite : source.Finite) (other : ∀ bare, source ≠ .named bare []) :
    (Expression.binding name source).Restored := by
  have namePrinted : Spells name.toList (.named name []) := by
    simpa [Operand.chars, Operand.dotted] using spells_chars nameSpells trivial
  have sourcePrinted := spells_chars sourceSpells finite
  constructor
  · exact parse_spaced namePrinted sourcePrinted (by simp [text_toList, signText]) (.bindLeft rfl other)
  · exact parse_spaced sourcePrinted namePrinted (by simp [text_toList, signText]) (.bindRight rfl other)

theorem restored_of_forms {kind : ExpressionKind} {leftText rightText : List Char} {left right : Operand}
    {sign : Sign} {expression : Expression} (leftSpells : Spells leftText left)
    (rightSpells : Spells rightText right) (forms : Forms kind left sign right expression)
    (finite : expression.Finite) : expression.Restored := by
  cases forms with
  | comparison op =>
    exact parse_spaced (spells_chars leftSpells finite.1) (spells_chars rightSpells finite.2)
      (by simp [text_toList, signText]) (.comparison op)
  | bindLeft target source =>
    subst target
    exact restored_binding leftSpells rightSpells finite source
  | bindRight target source =>
    subst target
    exact restored_binding rightSpells leftSpells finite source

/-- An expression that was parsed and whose numbers are finite is parsed again from the texts of its operands,
and the text of a content, whatever characters it has, is one token with that content. -/
theorem parse_restored :
    (∀ (text : String) (kind : ExpressionKind) (expression : Expression),
      parse text kind = .ok expression → expression.Finite → expression.Restored) ∧
    ∀ content : String,
      (Token.scan 0 (Operand.literal (.text content)).text.toList).map (List.map Lexeme.token) =
        .ok [.operand (.literal (.text content))] := by
  constructor
  · intro text kind expression parsed finite
    obtain ⟨left, sign, right, reads, forms⟩ := ofChars_iff.mp parsed
    obtain ⟨layout, -, parts⟩ := layout_of_reads reads
    exact restored_of_forms parts.left parts.right forms finite
  · intro content
    have spells : Spells (Operand.literal (.text content)).chars (.literal (.text content)) := by
      rw [Operand.chars]
      simpa using Spells.text (quoted_escape content.toList)
    have nothing : ∀ offset, Reads offset [] [] := fun offset => ⟨[], by rw [Token.scan], rfl⟩
    obtain ⟨lexemes, scanned, same⟩ := reads_operand spells (by simp [Ends]) nothing 0
    rw [List.append_nil] at scanned
    rw [text_toList, scanned, Except.map, same]

theorem parse_restored_samples :
    (Expression.comparison (.path ["name"]) .eq (.literal (.text "it's \\ it"))).Restored ∧
      (Expression.binding "LIMIT" (.literal (.number ⟨true, 0x3FE0000000000000, by decide⟩))).Restored :=
  ⟨parse_restored.1 "$.name=='it\\'s \\ it'" .design _ (by decide +kernel) ⟨trivial, trivial⟩,
    parse_restored.1 "-00.50 = $LIMIT" .binding _ (by decide +kernel) rfl⟩

end Expression
end ThreatModel
