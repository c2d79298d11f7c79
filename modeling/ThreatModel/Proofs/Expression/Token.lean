import ThreatModel.Proofs.Expression.Numeral

/-!
# Tokens and the grammar

A token takes all the characters it can, and knows of what follows only the next character. Main
statements: what is taken for an operand is the text of that operand, and the text of an operand is taken
for it wherever nothing, a blank or an operator sign follows; and the like for signs.
-/

namespace ThreatModel.Expression
open Token

/-! ## Character classes -/

theorem isBlank_code {c : Char} (blank : Text.isBlank c = true) : c.toNat ≤ 32 ∨ 133 ≤ c.toNat := by
  simp only [Text.isBlank, Bool.or_eq_true, Bool.and_eq_true, decide_eq_true_eq, UInt32.le_iff_toNat_le,
    ← UInt32.toNat_inj, UInt32.reduceToNat] at blank
  simp only [Char.toNat]
  omega

theorem isIdent_code {c : Char} (ident : isIdent c = true) :
    (48 ≤ c.toNat ∧ c.toNat ≤ 57) ∨ (65 ≤ c.toNat ∧ c.toNat ≤ 122) := by
  simp only [isIdent, isUpper, isLower, Decimal.isDigit, Bool.or_eq_true, Bool.and_eq_true,
    decide_eq_true_eq, Char.le_def, UInt32.le_iff_toNat_le, Char.reduceVal, UInt32.reduceToNat,
    Char.ext_iff, ← UInt32.toNat_inj] at ident
  simp only [Char.toNat]
  omega

theorem isNumeral_code {c : Char} (numeral : isNumeral c = true) : 46 ≤ c.toNat ∧ c.toNat ≤ 57 := by
  simp only [isNumeral, Decimal.isDigit, Bool.or_eq_true, Bool.and_eq_true, decide_eq_true_eq,
    Char.le_def, UInt32.le_iff_toNat_le, Char.reduceVal, UInt32.reduceToNat, Char.ext_iff,
    ← UInt32.toNat_inj] at numeral
  simp only [Char.toNat]
  omega

theorem endsOperand_code {c : Char} (ends : endsOperand c = true) :
    c.toNat ≤ 33 ∨ (60 ≤ c.toNat ∧ c.toNat ≤ 62) ∨ 133 ≤ c.toNat := by
  simp only [endsOperand, Bool.or_eq_true, decide_eq_true_eq] at ends
  rcases ends with (((blank | rfl) | rfl) | rfl) | rfl
  · have := isBlank_code blank
    omega
  · decide
  · decide
  · decide
  · decide

/-- What may follow an operand: nothing, or a blank or an operator sign. -/
def Ends (rest : List Char) : Prop := ∀ c ∈ rest.head?, endsOperand c = true

variable {rest : List Char}

theorem Ends.stops_ident (ends : Ends rest) : Stops isIdent rest := by
  intro c head
  have outside := endsOperand_code (ends c head)
  by_contra inside
  have := isIdent_code (by simpa using inside)
  omega

theorem Ends.stops_numeral (ends : Ends rest) : Stops isNumeral rest := by
  intro c head
  have outside := endsOperand_code (ends c head)
  by_contra inside
  have := isNumeral_code (by simpa using inside)
  omega

/-! ## Segments -/

/-- Segments are followed by no identifier character, whatever ends the operand. -/
theorem Dotted.stops_ident {text : List Char} {segments : List String} (dotted : Dotted text segments)
    (ends : Ends rest) : Stops isIdent (text ++ rest) := by
  cases dotted with
  | nil => exact ends.stops_ident
  | cons name others =>
    intro c head
    cases head
    decide

theorem segments?_of_dotted {text : List Char} {segments : List String} (dotted : Dotted text segments)
    (ends : Ends rest) : segments? (text ++ rest) = some (segments, rest) := by
  induction dotted with
  | nil =>
    rw [List.nil_append, segments?]
    intro after point
    have := endsOperand_code (ends '.' (by simp [point]))
    revert this
    decide
  | @cons segment after more name others ih =>
    have stops := others.stops_ident ends
    rw [List.cons_append, List.append_assoc, segments?]
    simp [takeWhile_of_stops name.2 stops, dropWhile_of_stops name.2 stops, name.1, ih]

theorem dotted_of_segments? {text : List Char} {segments : List String}
    (found : segments? text = some (segments, rest)) :
    ∃ taken, text = taken ++ rest ∧ Dotted taken segments := by
  fun_induction segments? text generalizing segments rest with
  | case1 => cases found
  | case2 after segment nonempty =>
    rename_i ih
    obtain ⟨⟨more, tail⟩, found, same⟩ := Option.map_eq_some_iff.mp found
    cases same
    obtain ⟨taken, cut, dotted⟩ := ih found
    have name : Run isIdent segment := ⟨by simpa using nonempty, fun c => List.mem_takeWhile_imp⟩
    refine ⟨'.' :: (segment ++ taken), ?_, .cons name dotted⟩
    rw [List.cons_append, List.append_assoc, ← cut, List.takeWhile_append_dropWhile]
  | case3 text =>
    cases found
    exact ⟨[], rfl, .nil⟩

/-! ## Text literals -/

theorem quoted?_of_quoted {body content : List Char} (quoted : Quoted body content) (rest : List Char) :
    quoted? (body ++ '\'' :: rest) = some (content, rest) := by
  induction quoted with
  | nil => rw [List.nil_append, quoted?]
  | @plain c more content quote backslash others ih =>
    rw [List.cons_append, quoted?]
    · rw [ih]; rfl
    · exact quote
    · rintro rfl; contradiction
    · intro _ _ same
      exact absurd same backslash
  | @dropped c more content special others ih =>
    rw [List.cons_append, List.cons_append, quoted?, ih]
    simp [special]
  | @kept c more content quote backslash others ih =>
    rw [List.cons_append, List.cons_append, quoted?, ih]
    simp [quote, backslash]

theorem quoted_of_quoted? {text content : List Char} (found : quoted? text = some (content, rest)) :
    ∃ body, text = body ++ '\'' :: rest ∧ Quoted body content := by
  fun_induction quoted? text generalizing content rest with
  | case1 => cases found
  | case2 after =>
    cases found
    exact ⟨[], rfl, .nil⟩
  | case3 => cases found
  | case4 c after ih =>
    obtain ⟨⟨more, tail⟩, found, same⟩ := Option.map_eq_some_iff.mp found
    obtain ⟨body, rfl, quoted⟩ := ih found
    cases same
    refine ⟨'\\' :: c :: body, rfl, ?_⟩
    by_cases special : c = '\'' ∨ c = '\\'
    · simpa [special] using quoted.dropped special
    · rw [not_or] at special
      simpa [special] using quoted.kept special.1 special.2
  | case5 c after quote single backslash ih =>
    obtain ⟨⟨more, tail⟩, found, same⟩ := Option.map_eq_some_iff.mp found
    obtain ⟨body, rfl, quoted⟩ := ih found
    cases same
    have plain : c ≠ '\\' := by
      rintro rfl
      cases body with
      | nil => exact backslash _ _ rfl rfl
      | cons d body => exact backslash _ _ rfl rfl
    exact ⟨c :: body, rfl, quoted.plain quote plain⟩

/-! ## Numbers -/

/-- A number token is a minus sign, if there is one, and the digits and points that follow. -/
theorem numeral_minus {text : List Char} (negative : Bool) (first : ∃ c ∈ text.head?, Decimal.isDigit c = true) :
    numeral (minus negative ++ text) = (minus negative ++ text.takeWhile isNumeral, text.dropWhile isNumeral) := by
  cases negative with
  | true => rfl
  | false =>
    obtain ⟨c, head, digit⟩ := first
    show numeral text = _
    unfold numeral
    split
    · cases head
      exact absurd digit (by decide)
    · rfl

/-- What the text of a number is made of, after its sign. -/
theorem Numeral.unsigned {text : List Char} {decimal : Decimal} (numeral : Numeral text decimal) :
    ∃ negative digits, text = minus negative ++ digits ∧ (∃ c ∈ digits.head?, Decimal.isDigit c = true) ∧
      (∀ c ∈ digits, isNumeral c = true) ∧ digits.getLast? ≠ some '.' := by
  have digitNumeral : ∀ c, Decimal.isDigit c = true → isNumeral c = true := by
    intro c digit
    simp [isNumeral, digit]
  cases numeral with
  | @whole digits negative run =>
    obtain ⟨first, more, rfl⟩ := List.exists_cons_of_ne_nil run.1
    refine ⟨negative, first :: more, rfl, ⟨first, rfl, run.2 first (by simp)⟩,
      fun c member => digitNumeral c (run.2 c member), ?_⟩
    intro last
    exact absurd (run.2 '.' (List.mem_of_getLast? last)) (by decide)
  | @fraction digits places negative run more =>
    obtain ⟨first, others, rfl⟩ := List.exists_cons_of_ne_nil run.1
    refine ⟨negative, first :: others ++ '.' :: places, rfl, ⟨first, rfl, run.2 first (by simp)⟩, ?_, ?_⟩
    · intro c member
      rcases List.mem_append.mp member with before | after
      · exact digitNumeral c (run.2 c before)
      · rcases List.mem_cons.mp after with rfl | after
        · decide
        · exact digitNumeral c (more.2 c after)
    · intro last
      have place : places.getLast? = some '.' := by
        simpa [List.getLast?_append, List.getLast?_cons, List.getLast?_eq_some_getLast more.1] using last
      exact absurd (more.2 '.' (List.mem_of_getLast? place)) (by decide)

theorem number_of_numeral {text : List Char} {decimal : Decimal} (numeral : Numeral text decimal)
    (ends : Ends rest) (offset : Nat) :
    number offset (text ++ rest) = .ok (.operand (.literal (.number decimal.toDouble)), rest) := by
  have read := ofText?_numeral numeral
  obtain ⟨negative, digits, rfl, first, all, last⟩ := numeral.unsigned
  obtain ⟨c, head, digit⟩ := first
  obtain ⟨more, rfl⟩ := List.head?_eq_some_iff.mp head
  have taken : Token.numeral (minus negative ++ (c :: more ++ rest)) = (minus negative ++ c :: more, rest) := by
    rw [numeral_minus negative ⟨c, rfl, digit⟩, takeWhile_of_stops all ends.stops_numeral,
      dropWhile_of_stops all ends.stops_numeral]
  have noWord : rest.takeWhile isIdent = [] := by
    have none : ([] ++ rest).takeWhile isIdent = [] := takeWhile_of_stops (by simp) ends.stops_ident
    rwa [List.nil_append] at none
  have noPoint : (minus negative ++ c :: more).getLast? ≠ some '.' := by
    simpa [List.getLast?_append, List.getLast?_cons] using last
  have double : Double.ofText? (minus negative ++ c :: more) = some decimal.toDouble := by
    rw [Double.ofText?, read, Option.map_some]
  rw [List.append_assoc, number, taken]
  simp only [noWord, noPoint, double, List.isEmpty_nil, Bool.not_true, Bool.false_eq_true, if_false]

theorem numeral_of_number {text rest : List Char} {negative : Bool} {offset : Nat} {token : Token}
    (first : ∃ c ∈ text.head?, Decimal.isDigit c = true)
    (found : number offset (minus negative ++ text) = .ok (token, rest)) :
    ∃ taken decimal, minus negative ++ text = taken ++ rest ∧ Numeral taken decimal ∧
      token = .operand (.literal (.number decimal.toDouble)) := by
  rw [number, numeral_minus negative first] at found
  simp only at found
  split at found
  · cases found
  split at found
  · cases found
  rename_i noPoint
  split at found
  · rename_i value double
    cases found
    obtain ⟨decimal, read, rfl⟩ := Option.map_eq_some_iff.mp double
    obtain ⟨c, head, digit⟩ := first
    obtain ⟨more, rfl⟩ := List.head?_eq_some_iff.mp head
    have opens : (c :: more).takeWhile isNumeral = c :: more.takeWhile isNumeral := by
      simp [isNumeral, digit]
    have last : ((c :: more).takeWhile isNumeral).getLast? ≠ some '.' := by
      rw [opens] at noPoint ⊢
      simpa [List.getLast?_append, List.getLast?_cons] using noPoint
    have unsigned : Decimal.ofUnsigned? negative ((c :: more).takeWhile isNumeral) = some decimal := by
      rw [opens] at read ⊢
      rwa [ofText?_minus negative digit] at read
    have numeral : Numeral (minus negative ++ (c :: more).takeWhile isNumeral) decimal :=
      numeral_of_ofUnsigned? ⟨c, by rw [opens]; rfl, digit⟩ (fun _ => List.mem_takeWhile_imp) last unsigned
    refine ⟨_, decimal, ?_, numeral, rfl⟩
    rw [List.append_assoc, List.takeWhile_append_dropWhile]
  · cases found

/-! ## Names -/

theorem isVariableName_iff {name : List Char} : isVariableName name = true ↔ VariableName name := by
  cases name with
  | nil => simp [isVariableName, VariableName]
  | cons first rest => simp [isVariableName, VariableName]

theorem VariableName.all_ident {name : List Char} (valid : VariableName name) :
    ∀ c ∈ name, isIdent c = true := by
  cases name with
  | nil => cases valid
  | cons first rest =>
    intro c member
    rcases List.mem_cons.mp member with rfl | member
    · simp [isIdent, valid.1]
    · have := valid.2 c member
      simp only [isNameRest, Bool.or_eq_true] at this
      simp only [isIdent, Bool.or_eq_true]
      tauto

/-- After a name and its segments the operand ends. -/
theorem name_split {name text : List Char} {segments : List String} (all : ∀ c ∈ name, isIdent c = true)
    (dotted : Dotted text segments) (ends : Ends rest) :
    (name ++ (text ++ rest)).takeWhile isIdent = name ∧
      (name ++ (text ++ rest)).dropWhile isIdent = text ++ rest :=
  ⟨takeWhile_of_stops all (dotted.stops_ident ends), dropWhile_of_stops all (dotted.stops_ident ends)⟩

/-- A point is followed by a segment. -/
theorem segments?_ne_nil {text : List Char} {segments : List String}
    (found : segments? ('.' :: text) = some (segments, rest)) : segments ≠ [] := by
  rintro rfl
  rw [segments?] at found
  split at found
  · cases found
  · obtain ⟨⟨more, tail⟩, -, same⟩ := Option.map_eq_some_iff.mp found
    cases same

theorem sigil_of_path {text : List Char} {segments : List String} (nonempty : segments ≠ [])
    (dotted : Dotted text segments) (ends : Ends rest) (offset : Nat) :
    sigil offset (text ++ rest) = .ok (.operand (.path segments), rest) := by
  have found := segments?_of_dotted dotted ends
  cases dotted with
  | nil => contradiction
  | cons name others =>
    rw [List.cons_append] at found ⊢
    simp only [sigil, if_true, found]

theorem sigil_of_name {name text : List Char} {segments : List String} (valid : VariableName name)
    (dotted : Dotted text segments) (ends : Ends rest) (offset : Nat) :
    sigil offset (name ++ (text ++ rest)) = .ok (.operand (.named (String.ofList name) segments), rest) := by
  obtain ⟨taken, dropped⟩ := name_split valid.all_ident dotted ends
  have named := isVariableName_iff.mpr valid
  cases name with
  | nil => cases valid
  | cons first others =>
    have notPoint : first ≠ '.' := by
      rintro rfl
      exact absurd valid.1 (by decide)
    rw [List.cons_append] at taken dropped ⊢
    simp only [sigil, notPoint, if_false, valid.1, if_true, taken, dropped, named,
      segments?_of_dotted dotted ends]

theorem spells_of_sigil {text : List Char} {offset : Nat} {token : Token}
    (found : sigil offset text = .ok (token, rest)) :
    ∃ taken operand, '$' :: text = taken ++ rest ∧ Spells taken operand ∧ token = .operand operand := by
  unfold sigil at found
  split at found
  · cases found
  rename_i c others
  split at found
  · rename_i point
    subst point
    split at found
    · rename_i segments after split
      cases found
      obtain ⟨taken, cut, dotted⟩ := dotted_of_segments? split
      exact ⟨'$' :: taken, _, by rw [cut, List.cons_append], .path (segments?_ne_nil split) dotted, rfl⟩
    · cases found
  split at found
  · simp only at found
    split at found
    · rename_i valid
      split at found
      · rename_i segments after split
        cases found
        obtain ⟨taken, cut, dotted⟩ := dotted_of_segments? split
        refine ⟨_, _, ?_, .dollarNamed (isVariableName_iff.mp valid) dotted, rfl⟩
        rw [List.cons_append, List.append_assoc, ← cut, List.takeWhile_append_dropWhile]
      · cases found
    · cases found
  · cases found

/-- The words for truth values are no names. -/
theorem VariableName.ne_truth {name : List Char} (valid : VariableName name) :
    name ≠ "true".toList ∧ name ≠ "false".toList := by
  constructor
  · rintro rfl
    exact absurd valid.1 (by decide)
  · rintro rfl
    exact absurd valid.1 (by decide)

theorem word_of_truth (ends : Ends rest) (offset : Nat) :
    word offset ("true".toList ++ rest) = .ok (.operand (.literal (.truth true)), rest) ∧
      word offset ("false".toList ++ rest) = .ok (.operand (.literal (.truth false)), rest) := by
  have yesIdent : ∀ c ∈ "true".toList, isIdent c = true := List.all_eq_true.mp (by decide)
  have noIdent : ∀ c ∈ "false".toList, isIdent c = true := List.all_eq_true.mp (by decide)
  obtain ⟨yes, afterYes⟩ := name_split yesIdent .nil ends
  obtain ⟨no, afterNo⟩ := name_split noIdent .nil ends
  rw [List.nil_append] at yes afterYes no afterNo
  constructor
  · simp only [word, yes, afterYes, if_true]
  · have other : "false".toList ≠ "true".toList := by decide
    simp only [word, no, afterNo, other, if_false, if_true]

theorem word_of_name {name text : List Char} {segments : List String} (valid : VariableName name)
    (dotted : Dotted text segments) (ends : Ends rest) (offset : Nat) :
    word offset (name ++ (text ++ rest)) = .ok (.operand (.named (String.ofList name) segments), rest) := by
  obtain ⟨taken, dropped⟩ := name_split valid.all_ident dotted ends
  simp only [word, taken, dropped, valid.ne_truth.1, valid.ne_truth.2, if_false,
    isVariableName_iff.mpr valid, if_true, segments?_of_dotted dotted ends]

theorem spells_of_word {text : List Char} {offset : Nat} {token : Token}
    (found : word offset text = .ok (token, rest)) :
    ∃ taken operand, text = taken ++ rest ∧ Spells taken operand ∧ token = .operand operand := by
  have cut : text = text.takeWhile isIdent ++ text.dropWhile isIdent := by simp
  simp only [word] at found
  split at found
  · rename_i yes
    cases found
    exact ⟨_, _, cut, yes ▸ .yes, rfl⟩
  split at found
  · rename_i no
    cases found
    exact ⟨_, _, cut, no ▸ .no, rfl⟩
  split at found
  · rename_i valid
    split at found
    · rename_i segments after split
      cases found
      obtain ⟨taken, cut, dotted⟩ := dotted_of_segments? split
      refine ⟨_, _, ?_, .named (isVariableName_iff.mp valid) dotted, rfl⟩
      rw [List.append_assoc, ← cut, List.takeWhile_append_dropWhile]
    · cases found
  · cases found

/-! ## Signs -/

/-- A sign of one character is not followed by the character that would make it longer. -/
theorem operator_of_sign {sign : Sign} {c : Char} {tail : List Char} (text : signText sign = c :: tail)
    (single : rest.head? ≠ some '=') (offset : Nat) :
    operator offset c (tail ++ rest) = .ok (.sign sign, rest) := by
  have alone : ∀ found, signOf? c false = some found → operator offset c rest = .ok (.sign found, rest) := by
    intro found known
    cases rest with
    | nil => simp only [operator, known]
    | cons d others =>
      unfold operator
      split
      rename_i same
      split at same
      · rename_i equal
        cases equal
        exact absurd rfl single
      · cases same
        simp only [known]
  cases sign with
  | bind =>
    cases text
    exact alone _ rfl
  | compare op =>
    cases op
    case lt | gt =>
      cases text
      exact alone _ rfl
    all_goals
      cases text
      rfl

theorem signText_of_signOf? {c : Char} {equals : Bool} {sign : Sign} (known : signOf? c equals = some sign) :
    signText sign = c :: (if equals then ['='] else []) := by
  unfold signOf? at known
  split at known
  all_goals
    cases known
    try rfl

theorem sign_of_operator {text : List Char} {c : Char} {offset : Nat} {token : Token}
    (found : operator offset c text = .ok (token, rest)) :
    ∃ sign, c :: text = signText sign ++ rest ∧ token = .sign sign := by
  unfold operator at found
  split at found
  rename_i equals after same
  split at found
  · rename_i sign known
    cases found
    refine ⟨sign, ?_, rfl⟩
    rw [signText_of_signOf? known]
    split at same
    · cases same
      rfl
    · cases same
      rfl
  · cases found

/-! ## Tokens -/

/-- The text of a token. -/
def TokenText (text : List Char) : Token → Prop
  | .operand value => Spells text value
  | .sign value => text = signText value

theorem numeral_start {c : Char} {text : List Char}
    (start : (Decimal.isDigit c || (c = '-' && text.head?.any Decimal.isDigit)) = true) :
    ∃ negative digits, c :: text = minus negative ++ digits ∧
      ∃ first ∈ digits.head?, Decimal.isDigit first = true := by
  simp only [Bool.or_eq_true, Bool.and_eq_true, decide_eq_true_eq, Option.any_eq_true] at start
  rcases start with digit | ⟨rfl, first, head, digit⟩
  · exact ⟨false, c :: text, rfl, c, rfl, digit⟩
  · exact ⟨true, text, rfl, first, head, digit⟩

/-- A token is taken from the start of a text. -/
theorem next_sound {offset : Nat} {c : Char} {text : List Char} {token : Token}
    (found : next offset c text = .ok (token, rest)) :
    ∃ taken, c :: text = taken ++ rest ∧ TokenText taken token := by
  unfold next at found
  split at found
  · rename_i dollar
    subst dollar
    obtain ⟨taken, operand, cut, spells, rfl⟩ := spells_of_sigil found
    exact ⟨taken, cut, spells⟩
  split at found
  · rename_i quote
    subst quote
    split at found
    · rename_i content after split
      cases found
      obtain ⟨body, rfl, quoted⟩ := quoted_of_quoted? split
      exact ⟨'\'' :: (body ++ ['\'']), by simp, Spells.text quoted⟩
    · cases found
  split at found
  · rename_i start
    obtain ⟨negative, digits, same, first⟩ := numeral_start start
    rw [same] at found ⊢
    obtain ⟨taken, decimal, cut, numeral, rfl⟩ := numeral_of_number first found
    exact ⟨taken, cut, Spells.number numeral⟩
  split at found
  · obtain ⟨taken, operand, cut, spells, rfl⟩ := spells_of_word found
    exact ⟨taken, cut, spells⟩
  split at found
  · obtain ⟨sign, cut, rfl⟩ := sign_of_operator found
    exact ⟨_, cut, rfl⟩
  · cases found

/-- A sign is taken if the character that would make it longer does not follow. -/
theorem next_sign {sign : Sign} {c : Char} {tail : List Char} (text : signText sign = c :: tail)
    (single : rest.head? ≠ some '=') (offset : Nat) :
    next offset c (tail ++ rest) = .ok (.sign sign, rest) := by
  have taken := operator_of_sign text single offset
  cases sign with
  | bind =>
    cases text
    exact taken
  | compare op =>
    cases op
    all_goals
      cases text
      exact taken

/-- A digit, or a minus sign before one, starts a number. -/
theorem next_of_number {c : Char} {text : List Char}
    (start : (Decimal.isDigit c || (c = '-' && text.head?.any Decimal.isDigit)) = true) (offset : Nat) :
    next offset c text = number offset (c :: text) := by
  have other : c ≠ '$' ∧ c ≠ '\'' := by
    constructor
    · rintro rfl
      exact absurd start (by simp; decide)
    · rintro rfl
      exact absurd start (by simp; decide)
  rw [next, if_neg other.1, if_neg other.2, if_pos start]

/-- A capital letter, a small one or an underscore starts a word. -/
theorem next_of_word {c : Char} {text : List Char} (letter : 65 ≤ c.toNat)
    (start : (isUpper c || isLower c || c = '_') = true) (offset : Nat) :
    next offset c text = word offset (c :: text) := by
  have low : ∀ d : Char, d.toNat < 65 → c ≠ d := by
    rintro d below rfl
    omega
  have noDigit : Decimal.isDigit c = false := by
    by_contra digit
    have numeral : isNumeral c = true := by simp_all [isNumeral]
    have := isNumeral_code numeral
    omega
  rw [next, if_neg (low '$' (by decide)), if_neg (low '\'' (by decide)),
    if_neg (by simp [noDigit, low '-' (by decide)]), if_pos start]

/-- The text of an operand starts with a character that starts no other token, and the operand is taken
if it ends where its text does. -/
theorem next_operand {text : List Char} {operand : Operand} (spells : Spells text operand) :
    ∃ c tail, text = c :: tail ∧ endsOperand c = false ∧
      ∀ offset rest, Ends rest → next offset c (tail ++ rest) = .ok (.operand operand, rest) := by
  have starts : ∀ {c : Char}, isIdent c = true → endsOperand c = false := by
    intro c ident
    have inside := isIdent_code ident
    by_contra ends
    have := endsOperand_code (by simpa using ends)
    omega
  cases spells with
  | path nonempty dotted =>
    refine ⟨'$', _, rfl, by decide, fun offset rest ends => ?_⟩
    rw [next, if_pos rfl, sigil_of_path nonempty dotted ends]
  | @named name text segments valid dotted =>
    cases name with
    | nil => cases valid
    | cons first others =>
      refine ⟨first, others ++ text, rfl, starts (by simp [isIdent, valid.1]), fun offset rest ends => ?_⟩
      have code : 65 ≤ first.toNat := by
        have := valid.1
        simp only [isUpper, Bool.and_eq_true, decide_eq_true_eq, Char.le_def, UInt32.le_iff_toNat_le] at this
        exact this.1
      have read := word_of_name valid dotted ends offset
      rw [next_of_word code (by simp [valid.1]), List.append_assoc]
      exact read
  | @dollarNamed name text segments valid dotted =>
    refine ⟨'$', _, rfl, by decide, fun offset rest ends => ?_⟩
    rw [next, if_pos rfl, List.append_assoc, sigil_of_name valid dotted ends]
  | yes =>
    refine ⟨'t', "rue".toList, rfl, by decide, fun offset rest ends => ?_⟩
    rw [next_of_word (by decide) (by decide)]
    exact (word_of_truth ends offset).1
  | no =>
    refine ⟨'f', "alse".toList, rfl, by decide, fun offset rest ends => ?_⟩
    rw [next_of_word (by decide) (by decide)]
    exact (word_of_truth ends offset).2
  | @number _ decimal numeral =>
    obtain ⟨negative, digits, rfl, ⟨first, head, digit⟩, -, -⟩ := numeral.unsigned
    obtain ⟨more, rfl⟩ := List.head?_eq_some_iff.mp head
    cases negative with
    | true =>
      refine ⟨'-', first :: more, rfl, by decide, fun offset rest ends => ?_⟩
      rw [next_of_number (by simp [digit])]
      exact number_of_numeral numeral ends offset
    | false =>
      refine ⟨first, more, rfl, starts (by simp [isIdent, digit]), fun offset rest ends => ?_⟩
      rw [next_of_number (by simp [digit])]
      exact number_of_numeral numeral ends offset
  | @text body content quoted =>
    refine ⟨'\'', _, rfl, by decide, fun offset rest ends => ?_⟩
    have read := quoted?_of_quoted quoted rest
    rw [List.append_assoc]
    simp [next, read]

end ThreatModel.Expression
