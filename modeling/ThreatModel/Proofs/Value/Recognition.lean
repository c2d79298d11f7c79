import ThreatModel.Proofs.Expression.Faults
import ThreatModel.Proofs.Text.Blank
import ThreatModel.Proofs.Value.Coherence

/-!
# Numbers in expressions and numbers in texts

Numbers are recognised in two places: as tokens of an expression, and as the content of a text that an order takes for
a number. Main statement: both recognise the same texts and read the same double of each, and both pass over the blanks
around it.
-/

namespace ThreatModel

namespace Token

/-! ## The characters of a number in one loop -/

/-- Takes digits and points, and a minus sign only as the first character. -/
def greedy (first : Bool) : List Char → List Char × List Char
  | [] => ([], [])
  | c :: rest =>
    if Decimal.isDigit c || c = '.' || (first && c = '-') then
      let (taken, rest) := greedy false rest
      (c :: taken, rest)
    else ([], c :: rest)

theorem greedy_false (text : List Char) : greedy false text = (text.takeWhile isNumeral, text.dropWhile isNumeral) := by
  induction text with
  | nil => rfl
  | cons c rest ih =>
    rw [greedy, Bool.false_and, Bool.or_false, ih, List.takeWhile_cons, List.dropWhile_cons, isNumeral]
    split <;> rfl

theorem greedy_true (text : List Char) : greedy true text = numeral text := by
  unfold numeral
  split
  · rw [greedy, greedy_false]
    rfl
  · rename_i unsigned
    rw [← greedy_false]
    cases text with
    | nil => rfl
    | cons c rest =>
      have noSign : decide (c = '-') = false := decide_eq_false fun sign => unsigned rest (by rw [sign])
      rw [greedy, greedy, noSign, Bool.and_false, Bool.and_false]

end Token

namespace Value
open Expression
open Token (scan next greedy)

variable {text : List Char} {decimal : Decimal} {value : Double}

/-! ## Texts that are one number -/

/-- A text is scanned to a number only, and the number takes all of it. -/
structure IsLiteral (text : List Char) (value : Double) : Prop where
  alone : scan 0 text = .ok [⟨.operand (.literal (.number value)), 0⟩]
  whole : ∃ c rest, text = c :: rest ∧ next 0 c rest = .ok (.operand (.literal (.number value)), [])

theorem numeral_of_tokenText (spelled : TokenText text (.operand (.literal (.number value)))) :
    ∃ decimal, Numeral text decimal ∧ decimal.toDouble = value := by
  cases spelled with
  | number numeral => exact ⟨_, numeral, rfl⟩

theorem isLiteral_iff : IsLiteral text value ↔ ∃ decimal, Numeral text decimal ∧ decimal.toDouble = value := by
  constructor
  · rintro ⟨-, c, rest, rfl, found⟩
    obtain ⟨taken, cut, spelled⟩ := next_sound found
    rw [cut, List.append_nil]
    exact numeral_of_tokenText spelled
  · rintro ⟨decimal, numeral, rfl⟩
    obtain ⟨c, rest, rfl, starts, taken⟩ := next_operand (.number numeral)
    have found := taken 0 [] (by simp [Ends])
    rw [List.append_nil] at found
    refine ⟨?_, c, rest, rfl, found⟩
    rw [scan, if_neg (by simp [notBlank_of_not_ends starts])]
    split
    · rename_i failed
      cases found.symm.trans failed
    · rename_i same
      cases found.symm.trans same
      simp only [scan_nil]

/-! ## Blanks around a number -/

theorem not_isBlank_of_isNumeral {c : Char} (member : Token.isNumeral c = true) : Text.isBlank c = false := by
  by_contra blank
  have inside := isNumeral_code member
  have outside := isBlank_code (by simpa using blank)
  omega

/-- No character of a number is blank. -/
theorem solid_of_numeral (numeral : Numeral text decimal) : ∀ c ∈ text, Text.isBlank c = false := by
  obtain ⟨negative, digits, rfl, -, all, -⟩ := numeral.unsigned
  intro c member
  rcases List.mem_append.mp member with sign | digit
  · cases negative with
    | true =>
      cases List.mem_singleton.mp sign
      decide
    | false => cases sign
  · exact not_isBlank_of_isNumeral (all c digit)

/-- A text counts as the number that is left of it without the blanks around it. -/
theorem textNumber?_of_numeral {content : String} (trimmed : Text.trim content.toList = text)
    (numeral : Numeral text decimal) : textNumber? content = some decimal.toDouble := by
  have solid : text.isEmpty = false := by
    obtain ⟨c, rest, same, -⟩ := next_operand (.number numeral)
    rw [same, List.isEmpty_cons]
  have read : Double.ofText? text = some decimal.toDouble := by
    rw [Double.ofText?, ofText?_numeral numeral, Option.map_some]
  simp [textNumber?, trimmed, solid, isNumeric_iff.mpr ⟨decimal, numeral⟩, read]

/-- A text is scanned to a number only, if nothing else than the number is left without the blanks around it. -/
theorem scan_eq_number_iff : (∃ offset, scan 0 text = .ok [⟨.operand (.literal (.number value)), offset⟩]) ↔
    ∃ decimal, Numeral (Text.trim text) decimal ∧ decimal.toDouble = value := by
  constructor
  · rintro ⟨offset, scanned⟩
    cases placed_of_scan scanned with
    | @cons _ before part rest _ _ blanks taken others =>
      cases others with
      | nil blanks' =>
        obtain ⟨decimal, numeral, same⟩ := numeral_of_tokenText taken
        rw [Text.trim_append blanks (solid_of_numeral numeral) blanks']
        exact ⟨decimal, numeral, same⟩
  · rintro ⟨decimal, numeral, rfl⟩
    obtain ⟨before, after, cut, blanks, blanks'⟩ := Text.exists_trim_append text
    have ends : Ends after := by
      simpa using Blanks.ends blanks' (show Ends [] by simp [Ends])
    obtain ⟨lexemes, scanned, same⟩ :=
      reads_blanks blanks (reads_operand (.number numeral) ends (Blanks.reads blanks')) 0
    rw [← cut] at scanned
    obtain ⟨⟨token, offset⟩, rfl, rfl⟩ := List.map_eq_singleton_iff.mp same
    exact ⟨offset, scanned⟩

/-! ## Both recognisers -/

theorem isNumeric_and_textNumber?_iff {content : String}
    (trimmed : ∀ decimal, Numeral text decimal → Text.trim content.toList = text) :
    isNumeric text = true ∧ textNumber? content = some value ↔
      ∃ decimal, Numeral text decimal ∧ decimal.toDouble = value := by
  rw [isNumeric_iff]
  constructor
  · rintro ⟨⟨decimal, numeral⟩, counts⟩
    have same := textNumber?_of_numeral (trimmed decimal numeral) numeral
    exact ⟨decimal, numeral, Option.some.inj (same.symm.trans counts)⟩
  · rintro ⟨decimal, numeral, rfl⟩
    exact ⟨⟨decimal, numeral⟩, textNumber?_of_numeral (trimmed decimal numeral) numeral⟩

/-- The texts that are one number in an expression are those that an order recognises as one, with the same double,
and the same holds of a number with blanks around it. -/
theorem literals_isNumeric (content : String) :
    greedy true content.toList = Token.numeral content.toList ∧
    ((∃ value, IsLiteral content.toList value) ↔ isNumeric content.toList = true) ∧
    (∀ value, IsLiteral content.toList value ↔
      isNumeric content.toList = true ∧ textNumber? content = some value) ∧
    ∀ value, (∃ offset, scan 0 content.toList = .ok [⟨.operand (.literal (.number value)), offset⟩]) ↔
      isNumeric (Text.trim content.toList) = true ∧ textNumber? content = some value := by
  have trimmed : ∀ decimal, Numeral content.toList decimal → Text.trim content.toList = content.toList := by
    intro decimal numeral
    simpa using Text.trim_append (List.forall_mem_nil _) (solid_of_numeral numeral) (List.forall_mem_nil _)
  refine ⟨Token.greedy_true _, ?_, fun value => ?_, fun value => ?_⟩
  · simp only [isLiteral_iff, isNumeric_iff]
    constructor
    · rintro ⟨_, decimal, numeral, -⟩
      exact ⟨decimal, numeral⟩
    · rintro ⟨decimal, numeral⟩
      exact ⟨_, decimal, numeral, rfl⟩
  · rw [isLiteral_iff, isNumeric_and_textNumber?_iff trimmed]
  · rw [scan_eq_number_iff, isNumeric_and_textNumber?_iff fun _ _ => rfl]

/-- A number has one sign and one point at most, and digits on both sides of its point. -/
example : ["1..2", "-", "--1", "1.", ".5", "1.2.3"].all (fun content => !isNumeric content.toList) = true := by
  decide

end Value
end ThreatModel
