import ThreatModel.Proofs.Except
import ThreatModel.Proofs.Expression.Token

/-!
# The parser and the grammar

Main statement: a text is parsed exactly if it can be cut as the grammar says, the expression is the one
that the parts stand for, and there is no other way to cut it.
-/

namespace ThreatModel.Expression
open Token

variable {text rest : List Char} {tokens : List Token}

/-! ## Tokens of a text -/

/-- Blanks and the texts of tokens, in the order of the tokens. -/
inductive Cut : List Char → List Token → Prop
  | nil {text : List Char} (blanks : Blanks text) : Cut text []
  | cons {before part rest : List Char} {token : Token} {more : List Token} (blanks : Blanks before)
      (taken : TokenText part token) (others : Cut rest more) : Cut (before ++ (part ++ rest)) (token :: more)

theorem Cut.blank {c : Char} (blank : Text.isBlank c = true) (cut : Cut text tokens) :
    Cut (c :: text) tokens := by
  cases cut with
  | nil blanks => exact .nil (List.forall_mem_cons.mpr ⟨blank, blanks⟩)
  | cons blanks taken others =>
    rw [← List.cons_append]
    exact .cons (List.forall_mem_cons.mpr ⟨blank, blanks⟩) taken others

/-- The scanner drops nothing but blanks. -/
theorem cut_of_scan {offset : Nat} {lexemes : List Lexeme} (scanned : scan offset text = .ok lexemes) :
    Cut text (lexemes.map (·.token)) := by
  fun_induction scan offset text generalizing lexemes with
  | case1 =>
    cases scanned
    exact .nil (by simp [Blanks])
  | case2 _ _ _ blank ih => exact (ih scanned).blank blank
  | case3 => cases scanned
  | case4 => cases scanned
  | case5 offset c rest notBlank token after found taken more scannedMore =>
    rename_i ih
    cases scanned
    obtain ⟨part, cut, text⟩ := next_sound found
    rw [cut]
    exact .cons (List.forall_mem_nil _) text (ih scannedMore)

/-- A text is scanned to some tokens, whatever their offsets. -/
def Reads (offset : Nat) (text : List Char) (tokens : List Token) : Prop :=
  ∃ lexemes, scan offset text = .ok lexemes ∧ lexemes.map (·.token) = tokens

theorem reads_blanks {blanks : List Char} (blank : Blanks blanks)
    (reads : ∀ offset, Reads offset text tokens) (offset : Nat) : Reads offset (blanks ++ text) tokens := by
  induction blanks generalizing offset with
  | nil => exact reads offset
  | cons c blanks ih =>
    obtain ⟨head, blank⟩ := List.forall_mem_cons.mp blank
    obtain ⟨lexemes, scanned, same⟩ := ih blank (offset + c.utf8Size)
    refine ⟨lexemes, ?_, same⟩
    rw [List.cons_append, scan, if_pos head, scanned]

theorem scan_nil (offset : Nat) : scan offset [] = .ok [] := by
  rw [scan]

/-- There is no token in blanks. -/
theorem Blanks.reads {blanks : List Char} (blank : Blanks blanks) (offset : Nat) : Reads offset blanks [] := by
  simpa using reads_blanks blank (fun offset => ⟨[], scan_nil offset, rfl⟩) offset

theorem reads_token {c : Char} {tail : List Char} {token : Token} (notBlank : Text.isBlank c = false)
    (found : ∀ offset, next offset c (tail ++ rest) = .ok (token, rest))
    (reads : ∀ offset, Reads offset rest tokens) (offset : Nat) :
    Reads offset (c :: tail ++ rest) (token :: tokens) := by
  rw [List.cons_append, Reads, scan, if_neg (by simp [notBlank])]
  split
  · rename_i fault failed
    rw [found offset] at failed
    cases failed
  · rename_i taken after same
    rw [found offset] at same
    cases same
    obtain ⟨lexemes, scanned, same⟩ :=
      reads (offset + Text.byteLength ((c :: (tail ++ rest)).take ((tail ++ rest).length + 1 - rest.length)))
    exact ⟨⟨token, offset⟩ :: lexemes, by simp only [scanned], by rw [List.map_cons, same]⟩

/-! ## Expressions of tokens -/

theorem takeOperand_iff {length : Nat} {lexemes more : List Lexeme} {operand : Operand} :
    takeOperand length lexemes = .ok (operand, more) ↔
      ∃ offset, lexemes = ⟨.operand operand, offset⟩ :: more := by
  constructor
  · intro taken
    unfold takeOperand at taken
    split at taken
    · cases taken
      exact ⟨_, rfl⟩
    · cases taken
  · rintro ⟨offset, rfl⟩
    rfl

theorem takeSign_iff {length : Nat} {lexemes more : List Lexeme} {sign : Sign} :
    takeSign length lexemes = .ok (sign, more) ↔ ∃ offset, lexemes = ⟨.sign sign, offset⟩ :: more := by
  constructor
  · intro taken
    unfold takeSign at taken
    split at taken
    · cases taken
      exact ⟨_, rfl⟩
    · cases taken
  · rintro ⟨offset, rfl⟩
    rfl

/-- Three tokens in the right order have a shape, wherever they stand. -/
theorem shape_iff {length : Nat} {lexemes : List Lexeme} {left right : Operand} {sign : Sign} :
    shape length lexemes = .ok (left, sign, right) ↔
      lexemes.map (·.token) = [.operand left, .sign sign, .operand right] := by
  constructor
  · intro shaped
    unfold shape at shaped
    split at shaped
    · cases shaped
    obtain ⟨⟨_, _⟩, first, afterFirst⟩ := Except.bind_eq_ok.mp shaped
    obtain ⟨_, rfl⟩ := takeOperand_iff.mp first
    obtain ⟨⟨_, _⟩, second, afterSecond⟩ := Except.bind_eq_ok.mp afterFirst
    obtain ⟨_, rfl⟩ := takeSign_iff.mp second
    obtain ⟨⟨_, others⟩, third, afterThird⟩ := Except.bind_eq_ok.mp afterSecond
    obtain ⟨_, rfl⟩ := takeOperand_iff.mp third
    by_cases empty : others.isEmpty = true
    · simp only [if_pos empty] at afterThird
      cases afterThird
      cases List.isEmpty_iff.mp empty
      rfl
    · simp only [if_neg empty] at afterThird
      cases afterThird
  · intro tokens
    simp only [List.map_eq_cons_iff, List.map_eq_nil_iff] at tokens
    obtain ⟨⟨_, first⟩, _, rfl, rfl, ⟨_, second⟩, _, rfl, rfl, ⟨_, third⟩, _, rfl, rfl, rfl⟩ := tokens
    rfl

theorem bareVariable?_iff {operand : Operand} {name : String} :
    operand.bareVariable? = some name ↔ operand = .named name [] := by
  constructor
  · intro bare
    unfold Operand.bareVariable? at bare
    split at bare
    · cases bare
      rfl
    · cases bare
  · rintro rfl
    rfl

theorem bareVariable?_none {operand : Operand} :
    operand.bareVariable? = none ↔ ∀ name, operand ≠ .named name [] := by
  rw [Option.eq_none_iff_forall_ne_some]
  exact forall_congr' fun name => not_congr bareVariable?_iff

theorem ofShape_iff {kind : ExpressionKind} {left right : Operand} {sign : Sign} {expression : Expression} :
    ofShape kind left sign right = .ok expression ↔ Forms kind left sign right expression := by
  constructor
  · intro formed
    unfold ofShape at formed
    split at formed
    · cases formed
    · cases formed
      exact .comparison _
    · unfold bind at formed
      split at formed
      · cases formed
      · cases formed
      · rename_i target source
        cases formed
        exact .bindLeft (bareVariable?_iff.mp target) (bareVariable?_none.mp source)
      · rename_i source target
        cases formed
        exact .bindRight (bareVariable?_iff.mp target) (bareVariable?_none.mp source)
    · cases formed
  · rintro (op | ⟨target, source⟩ | ⟨target, source⟩)
    · rfl
    · simp only [ofShape, bind, bareVariable?_iff.mpr target, bareVariable?_none.mpr source]
    · simp only [ofShape, bind, bareVariable?_iff.mpr target, bareVariable?_none.mpr source]

/-- Parsing finds two operands and a sign, and an expression that they form. -/
theorem ofChars_iff {kind : ExpressionKind} {expression : Expression} :
    ofChars text kind = .ok expression ↔ ∃ left sign right,
      Reads 0 text [.operand left, .sign sign, .operand right] ∧ Forms kind left sign right expression := by
  unfold ofChars
  constructor
  · intro parsed
    obtain ⟨lexemes, scanned, parsed⟩ := Except.bind_eq_ok.mp parsed
    obtain ⟨⟨left, sign, right⟩, shaped, formed⟩ := Except.bind_eq_ok.mp parsed
    exact ⟨left, sign, right, ⟨lexemes, scanned, shape_iff.mp shaped⟩, ofShape_iff.mp formed⟩
  · rintro ⟨left, sign, right, ⟨lexemes, scanned, tokens⟩, forms⟩
    exact Except.bind_eq_ok.mpr ⟨lexemes, scanned,
      Except.bind_eq_ok.mpr ⟨(left, sign, right), shape_iff.mpr tokens, ofShape_iff.mpr forms⟩⟩

/-- A condition is a comparison. -/
theorem comparison_of_parse {text : String} {expression : Expression}
    (parsed : parse text .design = .ok expression) :
    ∃ left op right, expression = .comparison left op right := by
  obtain ⟨left, sign, right, -, forms⟩ := ofChars_iff.mp parsed
  cases forms with
  | comparison op => exact ⟨left, op, right, rfl⟩

/-- A variable node is a binding. -/
theorem binding_of_parse {text : String} {expression : Expression}
    (parsed : parse text .binding = .ok expression) : ∃ name source, expression = .binding name source := by
  obtain ⟨left, sign, right, -, forms⟩ := ofChars_iff.mp parsed
  cases forms with
  | bindLeft => exact ⟨_, _, rfl⟩
  | bindRight => exact ⟨_, _, rfl⟩

/-! ## Cutting a text -/

theorem Blanks.ends {blanks : List Char} (blank : Blanks blanks) (ends : Ends rest) : Ends (blanks ++ rest) := by
  cases blanks with
  | nil => exact ends
  | cons c blanks =>
    intro d head
    cases head
    simp [endsOperand, blank c (by simp)]

/-- An operand does not start with what ends one. -/
theorem Spells.stops {operand : Operand} (spells : Spells text operand) (rest : List Char) :
    Stops endsOperand (text ++ rest) := by
  obtain ⟨c, tail, rfl, starts, -⟩ := next_operand spells
  intro d head
  cases head
  exact starts

theorem notBlank_of_not_ends {c : Char} (starts : endsOperand c = false) : Text.isBlank c = false := by
  simp only [endsOperand, Bool.or_eq_false_iff] at starts
  exact starts.1.1.1.1

theorem stops_blank (stops : Stops endsOperand text) : Stops Text.isBlank text :=
  fun c head => notBlank_of_not_ends (stops c head)

/-- A sign ends the operand before it and does not start with a blank. -/
theorem signText_cons (sign : Sign) :
    ∃ c tail, signText sign = c :: tail ∧ endsOperand c = true ∧ Text.isBlank c = false := by
  cases sign with
  | bind => exact ⟨_, _, rfl, by decide, by decide⟩
  | compare op => cases op <;> exact ⟨_, _, rfl, by decide, by decide⟩

/-- What follows each part of a text does not belong to it. -/
structure Layout.Separate (layout : Layout) : Prop where
  before : Stops Text.isBlank (layout.left ++ (layout.beforeSign ++ (layout.sign ++ (layout.afterSign ++
    (layout.right ++ layout.after)))))
  left : Ends (layout.beforeSign ++ (layout.sign ++ (layout.afterSign ++ (layout.right ++ layout.after))))
  beforeSign : Stops Text.isBlank (layout.sign ++ (layout.afterSign ++ (layout.right ++ layout.after)))
  sign : (layout.afterSign ++ (layout.right ++ layout.after)).head? ≠ some '='
  afterSign : Stops Text.isBlank (layout.right ++ layout.after)
  right : Ends layout.after

theorem Layout.Spells.separate {layout : Layout} {left right : Operand} {sign : Sign}
    (parts : layout.Spells left sign right) : layout.Separate := by
  obtain ⟨c, tail, text, ends, notBlank⟩ := signText_cons sign
  have signEnds : ∀ rest, Ends (layout.sign ++ rest) := by
    intro rest d head
    rw [parts.sign, text] at head
    cases head
    exact ends
  have signStops : ∀ rest, Stops Text.isBlank (layout.sign ++ rest) := by
    intro rest d head
    rw [parts.sign, text] at head
    cases head
    exact notBlank
  refine ⟨stops_blank (parts.left.stops _), parts.beforeSign.ends (signEnds _), signStops _, ?_,
    stops_blank (parts.right.stops _), ?_⟩
  · intro head
    rcases blanks : layout.afterSign with _ | ⟨d, others⟩
    · rw [blanks, List.nil_append] at head
      exact absurd (parts.right.stops layout.after '=' head) (by decide)
    · rw [blanks] at head
      cases head
      exact absurd (parts.afterSign '=' (by simp [blanks])) (by decide)
  · have none : Ends [] := by
      intro d head
      cases head
    simpa using parts.after.ends none

/-! ## Completeness -/

theorem reads_operand {operand : Operand} (spells : Spells text operand) (ends : Ends rest)
    (reads : ∀ offset, Reads offset rest tokens) (offset : Nat) :
    Reads offset (text ++ rest) (.operand operand :: tokens) := by
  obtain ⟨c, tail, rfl, starts, found⟩ := next_operand spells
  exact reads_token (notBlank_of_not_ends starts) (fun offset => found offset rest ends) reads offset

theorem reads_sign {sign : Sign} (single : rest.head? ≠ some '=')
    (reads : ∀ offset, Reads offset rest tokens) (offset : Nat) :
    Reads offset (signText sign ++ rest) (.sign sign :: tokens) := by
  obtain ⟨c, tail, text, -, notBlank⟩ := signText_cons sign
  rw [text]
  exact reads_token notBlank (next_sign text single) reads offset

/-- The parts of a text are found in it. -/
theorem Layout.Spells.reads {layout : Layout} {left right : Operand} {sign : Sign}
    (parts : layout.Spells left sign right) (offset : Nat) :
    Reads offset layout.text [.operand left, .sign sign, .operand right] := by
  have separate := parts.separate
  refine reads_blanks parts.before ?_ offset
  refine reads_operand parts.left separate.left ?_
  refine reads_blanks parts.beforeSign ?_
  rw [parts.sign]
  refine reads_sign separate.sign ?_
  refine reads_blanks parts.afterSign ?_
  exact reads_operand parts.right separate.right parts.after.reads

/-! ## Uniqueness -/

theorem blanks_unique {blanks blanks' rest rest' : List Char} (blank : Blanks blanks) (blank' : Blanks blanks')
    (stops : Stops Text.isBlank rest) (stops' : Stops Text.isBlank rest')
    (same : blanks ++ rest = blanks' ++ rest') : blanks = blanks' ∧ rest = rest' := by
  have taken := congrArg (List.takeWhile Text.isBlank) same
  rw [takeWhile_of_stops blank stops, takeWhile_of_stops blank' stops'] at taken
  subst taken
  exact ⟨rfl, List.append_cancel_left same⟩

theorem operand_unique {text text' rest rest' : List Char} {operand operand' : Operand}
    (spells : Spells text operand) (spells' : Spells text' operand') (ends : Ends rest) (ends' : Ends rest')
    (same : text ++ rest = text' ++ rest') : text = text' ∧ operand = operand' ∧ rest = rest' := by
  obtain ⟨c, tail, rfl, -, found⟩ := next_operand spells
  obtain ⟨c', tail', rfl, -, found'⟩ := next_operand spells'
  obtain ⟨rfl, sameTail⟩ : c = c' ∧ tail ++ rest = tail' ++ rest' := by simpa using same
  have taken := found 0 rest ends
  rw [sameTail, found' 0 rest' ends'] at taken
  cases taken
  exact ⟨List.append_cancel_right same, rfl, rfl⟩

theorem sign_unique {sign sign' : Sign} {rest rest' : List Char} (single : rest.head? ≠ some '=')
    (single' : rest'.head? ≠ some '=') (same : signText sign ++ rest = signText sign' ++ rest') :
    sign = sign' ∧ rest = rest' := by
  obtain ⟨c, tail, text, -, -⟩ := signText_cons sign
  obtain ⟨c', tail', text', -, -⟩ := signText_cons sign'
  rw [text, text'] at same
  obtain ⟨rfl, sameTail⟩ : c = c' ∧ tail ++ rest = tail' ++ rest' := by simpa using same
  have taken := next_sign text single 0
  rw [sameTail, next_sign text' single' 0] at taken
  cases taken
  exact ⟨rfl, rfl⟩

/-- A text is cut into operands, a sign and blanks in one way. -/
theorem Layout.Spells.unique {layout layout' : Layout} {left left' right right' : Operand} {sign sign' : Sign}
    (parts : layout.Spells left sign right) (parts' : layout'.Spells left' sign' right')
    (same : layout.text = layout'.text) : layout = layout' ∧ left = left' ∧ sign = sign' ∧ right = right' := by
  have separate := parts.separate
  have separate' := parts'.separate
  obtain ⟨before, same⟩ := blanks_unique parts.before parts'.before separate.before separate'.before same
  obtain ⟨leftText, rfl, same⟩ := operand_unique parts.left parts'.left separate.left separate'.left same
  obtain ⟨beforeSign, same⟩ :=
    blanks_unique parts.beforeSign parts'.beforeSign separate.beforeSign separate'.beforeSign same
  rw [parts.sign, parts'.sign] at same
  obtain ⟨rfl, afterSame⟩ := sign_unique separate.sign separate'.sign same
  obtain ⟨afterSign, rightSame⟩ :=
    blanks_unique parts.afterSign parts'.afterSign separate.afterSign separate'.afterSign afterSame
  obtain ⟨rightText, rfl, after⟩ :=
    operand_unique parts.right parts'.right separate.right separate'.right rightSame
  have signs : layout.sign = layout'.sign := parts.sign.trans parts'.sign.symm
  refine ⟨?_, rfl, rfl, rfl⟩
  cases layout
  cases layout'
  simp only [Layout.mk.injEq]
  exact ⟨before, leftText, beforeSign, signs, afterSign, rightText, after⟩

/-! ## Soundness -/

/-- Three tokens of a text are its parts. -/
theorem layout_of_reads {offset : Nat} {left right : Operand} {sign : Sign}
    (reads : Reads offset text [.operand left, .sign sign, .operand right]) :
    ∃ layout : Layout, layout.text = text ∧ layout.Spells left sign right := by
  obtain ⟨lexemes, scanned, tokens⟩ := reads
  have cut := cut_of_scan scanned
  rw [tokens] at cut
  cases cut with | cons before left cut =>
  cases cut with | cons beforeSign sign cut =>
  cases cut with | cons afterSign right cut =>
  cases cut with | nil after =>
  exact ⟨⟨_, _, _, _, _, _, _⟩, rfl, before, left, beforeSign, sign, afterSign, right, after⟩

/-- A text is that of two operands with a sign between them and any blanks around each. -/
def Spelled (text : String) (left : Operand) (sign : Sign) (right : Operand) : Prop :=
  ∃ layout : Layout, layout.text = text.toList ∧ layout.Spells left sign right

theorem Spelled.parse {text : String} {left right : Operand} {sign : Sign} (spelled : Spelled text left sign right)
    {kind : ExpressionKind} {expression : Expression} (forms : Forms kind left sign right expression) :
    Expression.parse text kind = .ok expression := by
  obtain ⟨layout, same, parts⟩ := spelled
  exact ofChars_iff.mpr ⟨left, sign, right, same ▸ parts.reads 0, forms⟩

/-- A text is parsed exactly if it can be cut into two operands and a sign that form an expression of its
kind, and then the result is that expression. There is no second way to cut it. -/
theorem parse_iff_denotes (text : String) (kind : ExpressionKind) :
    (∀ expression, parse text kind = .ok expression ↔ ∃ layout, Denotes text.toList kind layout expression) ∧
      ∀ layout layout' expression expression', Denotes text.toList kind layout expression →
        Denotes text.toList kind layout' expression' → layout = layout' ∧ expression = expression' := by
  constructor
  · intro expression
    unfold parse
    rw [ofChars_iff]
    constructor
    · rintro ⟨left, sign, right, reads, forms⟩
      obtain ⟨layout, same, parts⟩ := layout_of_reads reads
      exact ⟨layout, same, left, sign, right, parts, forms⟩
    · rintro ⟨layout, same, left, sign, right, parts, forms⟩
      exact ⟨left, sign, right, same ▸ parts.reads 0, forms⟩
  · rintro layout layout' expression expression' ⟨same, left, sign, right, parts, forms⟩
      ⟨same', left', sign', right', parts', forms'⟩
    obtain ⟨rfl, rfl, rfl, rfl⟩ := parts.unique parts' (same.trans same'.symm)
    refine ⟨rfl, ?_⟩
    have formed := ofShape_iff.mpr forms
    rw [ofShape_iff.mpr forms'] at formed
    cases formed
    rfl

-- A sign needs no blanks around it and takes the `=` that follows, and a number runs into no second point.
example : (["1<-1", "$.a=='x'", "$.a<=-1"].map fun text => (parse text .design).toOption.isSome) =
    [true, true, true] := by decide +kernel

example : (["12abc == 1", "1.2.3 == 1", "$.a===1"].map fun text => (parse text .design).toOption.isSome) =
    [false, false, false] := by decide +kernel

end ThreatModel.Expression
