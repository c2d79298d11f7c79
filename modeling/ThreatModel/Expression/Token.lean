import ThreatModel.Expression.ParseError
import ThreatModel.Text.Blank

/-!
# Tokens of an expression

An operand is one token, whatever its length, and so is an operator; blanks between tokens are
dropped. A token takes all the characters it can. Main statement: a token takes at least one
character, so that the tokens of a text are found by recursion on its length.
-/

namespace ThreatModel

/-- An operator sign: a comparison or the sign of a binding. -/
inductive Sign
  | compare (op : Comparator)
  | bind
  deriving DecidableEq, Repr

inductive Token
  | operand (value : Operand)
  | sign (value : Sign)
  deriving DecidableEq

/-- A token and the offset at which it starts. -/
structure Lexeme where
  token : Token
  offset : Nat
  deriving DecidableEq

namespace Token

/-! ## Character classes -/

def isUpper (c : Char) : Bool := 'A' ≤ c && c ≤ 'Z'

def isLower (c : Char) : Bool := 'a' ≤ c && c ≤ 'z'

/-- The characters of path segments: ASCII letters, digits and the underscore. -/
def isIdent (c : Char) : Bool := isUpper c || isLower c || Decimal.isDigit c || c = '_'

/-- The characters a variable name may go on with. -/
def isNameRest (c : Char) : Bool := isUpper c || Decimal.isDigit c || c = '_'

/-- Variable names start with a capital letter and go on with capitals, digits and underscores. -/
def isVariableName : List Char → Bool
  | [] => false
  | first :: rest => isUpper first && rest.all isNameRest

/-- The characters that end a malformed operand. -/
def endsOperand (c : Char) : Bool :=
  Text.isBlank c || c = '=' || c = '!' || c = '<' || c = '>'

/-! ## Operands -/

/-- The fault of an operand that starts with `word`: all up to the next blank or operator sign. -/
def invalid (offset : Nat) (word : List Char) : ParseError :=
  .invalidOperand (String.ofList (word.takeWhile (!endsOperand ·))) offset

/-- Splits off the segments that follow, each after a point; `none` if a segment is empty. -/
def segments? (text : List Char) : Option (List String × List Char) :=
  match text with
  | '.' :: rest =>
    let segment := rest.takeWhile isIdent
    if segment.isEmpty then none
    else (segments? (rest.dropWhile isIdent)).map fun (more, rest) => (String.ofList segment :: more, rest)
  | text => some ([], text)
  termination_by text.length
  decreasing_by
    have := Text.length_dropWhile_le isIdent rest
    simp only [List.length_cons, gt_iff_lt]
    omega

/-- Splits off an operand that starts with `$`: a path, or a variable. -/
def sigil (offset : Nat) (rest : List Char) : Except ParseError (Token × List Char) :=
  let fault := .error (invalid offset ('$' :: rest))
  match rest with
  | [] => fault
  | c :: _ =>
    if c = '.' then
      match segments? rest with
      | some (segments, rest) => .ok (.operand (.path segments), rest)
      | none => .error (invalidPath offset ['$'] rest)
    else if isUpper c then
      let name := rest.takeWhile isIdent
      if isVariableName name then
        match segments? (rest.dropWhile isIdent) with
        | some (segments, rest) => .ok (.operand (.named (String.ofList name) segments), rest)
        | none => .error (invalidPath offset ('$' :: name) (rest.dropWhile isIdent))
      else fault
    else fault
where
  /-- The fault of an operand whose path has an empty segment. -/
  invalidPath (offset : Nat) (before path : List Char) : ParseError := invalid offset (before ++ path)

/-- Splits off the content of a text literal, up to the quote that closes it. -/
def quoted? : List Char → Option (List Char × List Char)
  | [] => none
  | '\'' :: rest => some ([], rest)
  | ['\\'] => none
  | '\\' :: c :: rest =>
    (quoted? rest).map fun (content, rest) =>
      (if c = '\'' || c = '\\' then c :: content else '\\' :: c :: content, rest)
  | c :: rest => (quoted? rest).map fun (content, rest) => (c :: content, rest)

/-- The characters a number may go on with. -/
def isNumeral (c : Char) : Bool := Decimal.isDigit c || c = '.'

/-- The characters of a number: digits and points, after a minus sign if there is one. -/
def numeral : List Char → List Char × List Char
  | '-' :: rest => ('-' :: rest.takeWhile isNumeral, rest.dropWhile isNumeral)
  | text => (text.takeWhile isNumeral, text.dropWhile isNumeral)

/-- Splits off a number. A number that runs into a word is no operand. -/
def number (offset : Nat) (text : List Char) : Except ParseError (Token × List Char) :=
  let (taken, rest) := numeral text
  let word := rest.takeWhile isIdent
  if !word.isEmpty then .error (.invalidOperand (String.ofList (taken ++ word)) offset)
  else if taken.getLast? = some '.' then .error (.invalidNumber (String.ofList taken))
  else match Double.ofText? taken with
    | some value => .ok (.operand (.literal (.number value)), rest)
    | none => .error (.invalidNumber (String.ofList taken))

/-- Splits off a word: a truth value, or a variable. -/
def word (offset : Nat) (text : List Char) : Except ParseError (Token × List Char) :=
  let name := text.takeWhile isIdent
  let rest := text.dropWhile isIdent
  if name = "true".toList then .ok (.operand (.literal (.truth true)), rest)
  else if name = "false".toList then .ok (.operand (.literal (.truth false)), rest)
  else if isVariableName name then
    match segments? rest with
    | some (segments, rest) => .ok (.operand (.named (String.ofList name) segments), rest)
    | none => .error (invalid offset text)
  else .error (invalid offset text)

/-! ## Operators -/

/-- The sign that starts with a character, if `=` follows or not. -/
def signOf? (c : Char) (equals : Bool) : Option Sign :=
  match c, equals with
  | '=', true => some (.compare .eq)
  | '!', true => some (.compare .ne)
  | '<', true => some (.compare .le)
  | '>', true => some (.compare .ge)
  | '=', false => some .bind
  | '<', false => some (.compare .lt)
  | '>', false => some (.compare .gt)
  | _, _ => none

/-- Splits off an operator that starts with `c`. -/
def operator (offset : Nat) (c : Char) (rest : List Char) : Except ParseError (Token × List Char) :=
  let (equals, rest) := match rest with
    | '=' :: rest => (true, rest)
    | rest => (false, rest)
  match signOf? c equals with
  | some found => .ok (.sign found, rest)
  | none => .error (.unexpectedChar c offset)

/-! ## Texts -/

/-- Splits off the token that starts with `c`, which is not blank. -/
def next (offset : Nat) (c : Char) (rest : List Char) : Except ParseError (Token × List Char) :=
  if c = '$' then sigil offset rest
  else if c = '\'' then
    match quoted? rest with
    | some (content, rest) => .ok (.operand (.literal (.text (String.ofList content))), rest)
    | none => .error (.unterminatedString offset)
  else if Decimal.isDigit c || (c = '-' && rest.head?.any Decimal.isDigit) then number offset (c :: rest)
  else if isUpper c || isLower c || c = '_' then word offset (c :: rest)
  else if c = '=' || c = '!' || c = '<' || c = '>' then operator offset c rest
  else .error (.unexpectedChar c offset)

theorem length_segments? {text rest : List Char} {found : List String}
    (h : segments? text = some (found, rest)) : rest.length ≤ text.length := by
  fun_induction segments? text generalizing found rest with
  | case1 => simp at h
  | case2 after _ _ =>
    rename_i ih
    obtain ⟨⟨more, tail⟩, hm, hp⟩ := Option.map_eq_some_iff.1 h
    simp only [Prod.mk.injEq] at hp
    have hle := hp.2 ▸ ih hm
    have hd := Text.length_dropWhile_le isIdent after
    simp only [List.length_cons]
    omega
  | case3 => simp_all

theorem length_quoted? {text content rest : List Char}
    (h : quoted? text = some (content, rest)) : rest.length ≤ text.length := by
  fun_induction quoted? text generalizing content rest with
  | case1 => simp at h
  | case2 => simp_all
  | case3 => simp at h
  | case4 c after ih =>
    obtain ⟨⟨more, tail⟩, hm, hp⟩ := Option.map_eq_some_iff.1 h
    simp only [Prod.mk.injEq] at hp
    have := hp.2 ▸ ih hm
    simp only [List.length_cons]
    omega
  | case5 c after _ _ _ ih =>
    obtain ⟨⟨more, tail⟩, hm, hp⟩ := Option.map_eq_some_iff.1 h
    simp only [Prod.mk.injEq] at hp
    have := hp.2 ▸ ih hm
    simp only [List.length_cons]
    omega

private theorem length_sigil {offset : Nat} {text rest : List Char} {token : Token}
    (h : sigil offset text = .ok (token, rest)) : rest.length ≤ text.length := by
  unfold sigil at h
  split at h
  · simp at h
  · split at h
    · split at h
      · rename_i hs
        simp only [Except.ok.injEq, Prod.mk.injEq] at h
        exact h.2 ▸ length_segments? hs
      · simp at h
    · split at h
      · simp only at h
        split at h
        · split at h
          · rename_i hs
            simp only [Except.ok.injEq, Prod.mk.injEq] at h
            exact h.2 ▸ Nat.le_trans (length_segments? hs) (Text.length_dropWhile_le _ _)
          · simp at h
        · simp at h
      · simp at h

private theorem length_numeral {c : Char} (rest : List Char) (hc : isNumeral c = true ∨ c = '-') :
    (numeral (c :: rest)).2.length ≤ rest.length := by
  unfold numeral
  split
  · rename_i tail heq
    simp only [List.cons.injEq] at heq
    exact heq.2 ▸ Text.length_dropWhile_le _ _
  · rename_i hne
    rcases hc with hc | hc
    · simp only [List.dropWhile_cons, hc, if_true]
      exact Text.length_dropWhile_le _ _
    · exact absurd (congrArg (· :: rest) hc) (hne rest)

private theorem length_number {offset : Nat} {c : Char} {text rest : List Char} {token : Token}
    (hc : isNumeral c = true ∨ c = '-') (h : number offset (c :: text) = .ok (token, rest)) :
    rest.length ≤ text.length := by
  unfold number at h
  have hn := length_numeral text hc
  revert h hn
  generalize numeral (c :: text) = split'
  obtain ⟨taken, after⟩ := split'
  intro h hn
  simp only at h hn
  split at h
  · simp at h
  · split at h
    · simp at h
    · split at h
      · simp only [Except.ok.injEq, Prod.mk.injEq] at h
        exact h.2 ▸ hn
      · simp at h

private theorem length_word {offset : Nat} {c : Char} {text rest : List Char} {token : Token}
    (hc : isIdent c = true) (h : word offset (c :: text) = .ok (token, rest)) :
    rest.length ≤ text.length := by
  unfold word at h
  have hd : ((c :: text).dropWhile isIdent).length ≤ text.length := by
    simp only [List.dropWhile_cons, hc, if_true]
    exact Text.length_dropWhile_le _ _
  simp only at h
  split at h
  · simp only [Except.ok.injEq, Prod.mk.injEq] at h
    exact h.2 ▸ hd
  · split at h
    · simp only [Except.ok.injEq, Prod.mk.injEq] at h
      exact h.2 ▸ hd
    · split at h
      · split at h
        · rename_i hs
          simp only [Except.ok.injEq, Prod.mk.injEq] at h
          exact h.2 ▸ Nat.le_trans (length_segments? hs) hd
        · simp at h
      · simp at h

private theorem length_operator {offset : Nat} {c : Char} {text rest : List Char} {token : Token}
    (h : operator offset c text = .ok (token, rest)) : rest.length ≤ text.length := by
  unfold operator at h
  split at h
  rename_i equals after heq
  have hle : after.length ≤ text.length := by
    split at heq
    · simp only [Prod.mk.injEq] at heq
      simp [← heq.2]
    · simp only [Prod.mk.injEq] at heq
      simp [← heq.2]
  split at h
  · simp only [Except.ok.injEq, Prod.mk.injEq] at h
    exact h.2 ▸ hle
  · simp at h

/-- A token takes at least the character it starts with. -/
theorem length_next {offset : Nat} {c : Char} {rest : List Char} {token : Token} {after : List Char}
    (h : next offset c rest = .ok (token, after)) : after.length ≤ rest.length := by
  unfold next at h
  split at h
  · exact length_sigil h
  · split at h
    · split at h
      · rename_i hq
        simp only [Except.ok.injEq, Prod.mk.injEq] at h
        exact h.2 ▸ length_quoted? hq
      · simp at h
    · split at h
      · rename_i hc
        refine length_number ?_ h
        simp only [Bool.or_eq_true, Bool.and_eq_true, decide_eq_true_eq] at hc
        rcases hc with hc | hc
        · exact Or.inl (by simp [isNumeral, hc])
        · exact Or.inr hc.1
      · split at h
        · rename_i hc
          refine length_word ?_ h
          simp only [Bool.or_eq_true, decide_eq_true_eq] at hc
          rcases hc with (hc | hc) | hc <;> simp [isIdent, hc]
        · split at h
          · exact length_operator h
          · simp at h

/-- The tokens of a text that starts at an offset. -/
def scan (offset : Nat) (text : List Char) : Except ParseError (List Lexeme) :=
  match text with
  | [] => .ok []
  | c :: rest =>
    if Text.isBlank c then scan (offset + c.utf8Size) rest
    else match _found : next offset c rest with
      | .error fault => .error fault
      | .ok (token, after) =>
        let taken := (c :: rest).take (rest.length + 1 - after.length)
        match scan (offset + Text.byteLength taken) after with
        | .error fault => .error fault
        | .ok more => .ok (⟨token, offset⟩ :: more)
  termination_by text.length
  decreasing_by
    · simp
    · have := length_next _found
      simp only [List.length_cons, gt_iff_lt]
      omega

end Token
end ThreatModel
