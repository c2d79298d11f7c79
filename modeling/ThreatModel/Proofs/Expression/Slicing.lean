import ThreatModel.Proofs.Expression.Token

/-!
# Tokens cut out of a text

A scanner that goes through a text by byte offsets cuts each part that it takes, and each part that it names in a
fault, out of the text between two offsets. A cut fails where an offset parts a character or lies outside of the text,
or where the offsets are in the wrong order. Main statement: no cut fails, and what is found is what `Token.scan` finds
character by character.
-/

namespace ThreatModel

namespace Text

/-! ## Cutting -/

/-- Cuts a text at a byte offset, which must be a boundary between characters or an end of the text. -/
def cutAt? : List Char → Nat → Option (List Char × List Char)
  | text, 0 => some ([], text)
  | [], _ + 1 => none
  | c :: rest, offset + 1 =>
    if c.utf8Size ≤ offset + 1 then
      (cutAt? rest (offset + 1 - c.utf8Size)).map fun (before, after) => (c :: before, after)
    else none

/-- What stands between two byte offsets. -/
def slice? (text : List Char) (start stop : Nat) : Option (List Char) :=
  if start ≤ stop then
    (cutAt? text start).bind fun (_, rest) => (cutAt? rest (stop - start)).map (·.1)
  else none

variable {text before part after rest : List Char} {start stop : Nat}

theorem byteLength_pos {c : Char} (member : c ∈ text) : 0 < byteLength text := by
  cases text with
  | nil => cases member
  | cons d rest => exact Nat.add_pos_left d.utf8Size_pos _

theorem cutAt?_eq_some {offset : Nat} :
    cutAt? text offset = some (before, after) ↔ text = before ++ after ∧ byteLength before = offset := by
  fun_induction cutAt? text offset generalizing before with
  | case1 text =>
    constructor
    · rintro ⟨⟩
      exact ⟨rfl, rfl⟩
    · rintro ⟨rfl, none⟩
      have empty : before = [] := List.eq_nil_iff_forall_not_mem.mpr fun c member => by
        have := byteLength_pos member
        omega
      rw [empty, List.nil_append]
  | case2 offset =>
    refine iff_of_false (by simp) ?_
    rintro ⟨whole, same⟩
    obtain ⟨rfl, -⟩ := List.append_eq_nil_iff.mp whole.symm
    cases same
  | case3 c rest offset fits ih =>
    rw [Option.map_eq_some_iff]
    constructor
    · rintro ⟨⟨front, behind⟩, found, same⟩
      cases same
      obtain ⟨rfl, same⟩ := ih.mp found
      refine ⟨rfl, ?_⟩
      rw [byteLength, same]
      omega
    · rintro ⟨whole, same⟩
      cases before with
      | nil => cases same
      | cons d front =>
        obtain ⟨rfl, rfl⟩ : c = d ∧ rest = front ++ after := by simpa using whole
        refine ⟨(front, after), ih.mpr ⟨rfl, ?_⟩, rfl⟩
        rw [byteLength] at same
        omega
  | case4 c rest offset parts =>
    refine iff_of_false (by simp) ?_
    rintro ⟨whole, same⟩
    cases before with
    | nil => cases same
    | cons d front =>
      obtain ⟨rfl, -⟩ : c = d ∧ rest = front ++ after := by simpa using whole
      rw [byteLength] at same
      omega

/-- A part is cut out of a text exactly if it stands there. -/
theorem slice?_eq_some : slice? text start stop = some part ↔
    ∃ before after, text = before ++ (part ++ after) ∧ byteLength before = start ∧ start + byteLength part = stop := by
  unfold slice?
  constructor
  · intro found
    split at found
    · obtain ⟨⟨before, rest⟩, cut, found⟩ := Option.bind_eq_some_iff.mp found
      obtain ⟨⟨part', after⟩, inner, same⟩ := Option.map_eq_some_iff.mp found
      cases same
      obtain ⟨rfl, front⟩ := cutAt?_eq_some.mp cut
      obtain ⟨rfl, width⟩ := cutAt?_eq_some.mp inner
      refine ⟨before, after, rfl, front, ?_⟩
      show start + byteLength part' = stop
      have width : byteLength part' = stop - start := width
      omega
    · cases found
  · rintro ⟨before, after, rfl, rfl, rfl⟩
    have inner : cutAt? (part ++ after) (byteLength before + byteLength part - byteLength before) =
        some (part, after) := cutAt?_eq_some.mpr ⟨rfl, by omega⟩
    rw [if_pos (Nat.le_add_right _ _), cutAt?_eq_some.mpr ⟨rfl, rfl⟩, Option.bind_some]
    exact congrArg (Option.map (·.1)) inner

/-! ## Places -/

/-- A place in a text: its byte offset, and what stands behind it. -/
structure Cursor where
  offset : Nat
  rest : List Char

/-- The place behind which some last part of a text stands. -/
def cursor (text rest : List Char) : Cursor := ⟨byteLength text - byteLength rest, rest⟩

/-- The place behind the characters of a class. -/
def past (isMember : Char → Bool) (offset : Nat) : List Char → Cursor
  | [] => ⟨offset, []⟩
  | c :: rest => if isMember c then past isMember (offset + c.utf8Size) rest else ⟨offset, c :: rest⟩

@[simp] theorem cursor_rest (text rest : List Char) : (cursor text rest).rest = rest := rfl

theorem offset_append (last : part ++ after <:+ text) :
    (cursor text (part ++ after)).offset + byteLength part = (cursor text after).offset := by
  obtain ⟨before, rfl⟩ := last
  simp only [cursor, byteLength_append]
  omega

theorem offset_cons {c : Char} (last : c :: rest <:+ text) :
    (cursor text (c :: rest)).offset + c.utf8Size = (cursor text rest).offset :=
  offset_append (show [c] ++ rest <:+ text from last)

theorem slice?_cursor (last : part ++ after <:+ text) :
    slice? text (cursor text (part ++ after)).offset (cursor text after).offset = some part := by
  obtain ⟨before, rfl⟩ := last
  refine slice?_eq_some.mpr ⟨before, after, rfl, ?_, offset_append (List.suffix_append before _)⟩
  simp only [cursor, byteLength_append]
  omega

theorem past_cursor (isMember : Char → Bool) (last : rest <:+ text) :
    past isMember (cursor text rest).offset rest = cursor text (rest.dropWhile isMember) := by
  induction rest with
  | nil => rfl
  | cons c rest ih =>
    rw [past, List.dropWhile_cons, offset_cons last]
    split
    · exact ih ((List.suffix_cons c rest).trans last)
    · rfl

theorem slice?_past (isMember : Char → Bool) (last : rest <:+ text) :
    slice? text (cursor text rest).offset (cursor text (rest.dropWhile isMember)).offset =
      some (rest.takeWhile isMember) := by
  rw [← List.takeWhile_append_dropWhile (p := isMember) (l := rest)] at last
  simpa using slice?_cursor last

theorem length_past (isMember : Char → Bool) (offset : Nat) (rest : List Char) :
    (past isMember offset rest).rest.length ≤ rest.length := by
  induction rest generalizing offset with
  | nil => exact Nat.le_refl _
  | cons c rest ih =>
    rw [past]
    split
    · exact Nat.le_succ_of_le (ih _)
    · exact Nat.le_refl _

end Text

namespace Token.Sliced
open Text (Cursor cursor past slice?)

/-! ## Scanning by offsets -/

section Scanning

variable (text : List Char)

/-- The fault of an operand that starts at an offset and is malformed before some place. -/
def invalid? (start offset : Nat) (rest : List Char) : Option ParseError := do
  let behind := past (!endsOperand ·) offset rest
  let stop := if behind.rest.isEmpty then Text.byteLength text else behind.offset
  let word ← slice? text start stop
  return .invalidOperand (String.ofList word) start

def segments? (start : Nat) : Nat → List Char → Option (Except ParseError (List String × Cursor))
  | offset, '.' :: rest =>
    let behind := past isIdent (offset + 1) rest
    (slice? text (offset + 1) behind.offset).bind fun segment =>
      if segment.isEmpty then (invalid? text start behind.offset behind.rest).map .error
      else
        (segments? start behind.offset behind.rest).map
          (·.map fun (more, last) => (String.ofList segment :: more, last))
  | offset, rest => some (.ok ([], ⟨offset, rest⟩))
  termination_by _ rest => rest.length
  decreasing_by
    have := Text.length_past isIdent (offset + 1) rest
    simp only [List.length_cons, gt_iff_lt]
    omega

/-- An operand that is a name and the segments behind it. -/
def named? (start : Nat) (name : List Char) (behind : Cursor) : Option (Except ParseError (Token × Cursor)) :=
  if isVariableName name then
    (segments? text start behind.offset behind.rest).map
      (·.map fun (segments, last) => (.operand (.named (String.ofList name) segments), last))
  else (invalid? text start behind.offset behind.rest).map .error

def sigil? (start offset : Nat) : List Char → Option (Except ParseError (Token × Cursor))
  | [] => (invalid? text start offset []).map .error
  | c :: rest =>
    if c = '.' then
      (segments? text start offset (c :: rest)).map
        (·.map fun (segments, last) => (.operand (.path segments), last))
    else if isUpper c then
      let behind := past isIdent offset (c :: rest)
      (slice? text offset behind.offset).bind fun name => named? text start name behind
    else (invalid? text start offset (c :: rest)).map .error

/-- The content of a text literal is gathered character by character, so nothing is cut. -/
def quoted (start : Nat) : Nat → List Char → Except ParseError (List Char × Cursor)
  | _, [] => .error (.unterminatedString start)
  | offset, '\'' :: rest => .ok ([], ⟨offset + 1, rest⟩)
  | _, ['\\'] => .error (.unterminatedString start)
  | offset, '\\' :: c :: rest =>
    (quoted start (offset + 1 + c.utf8Size) rest).map fun (content, last) =>
      (if c = '\'' || c = '\\' then c :: content else '\\' :: c :: content, last)
  | offset, c :: rest =>
    (quoted start (offset + c.utf8Size) rest).map fun (content, last) => (c :: content, last)

def numeral (start : Nat) : List Char → Cursor
  | '-' :: rest => past isNumeral (start + 1) rest
  | rest => past isNumeral start rest

def number? (start : Nat) (rest : List Char) : Option (Except ParseError (Token × Cursor)) :=
  let behind := numeral start rest
  (slice? text behind.offset (past isIdent behind.offset behind.rest).offset).bind fun word =>
    (slice? text start behind.offset).map fun taken =>
      if !word.isEmpty then .error (.invalidOperand (String.ofList (taken ++ word)) start)
      else if taken.getLast? = some '.' then .error (.invalidNumber (String.ofList taken))
      else match Double.ofText? taken with
        | some value => .ok (.operand (.literal (.number value)), behind)
        | none => .error (.invalidNumber (String.ofList taken))

def word? (start : Nat) (rest : List Char) : Option (Except ParseError (Token × Cursor)) :=
  let behind := past isIdent start rest
  (slice? text start behind.offset).bind fun name =>
    if name = "true".toList then some (.ok (.operand (.literal (.truth true)), behind))
    else if name = "false".toList then some (.ok (.operand (.literal (.truth false)), behind))
    else named? text start name behind

def operator (offset : Nat) (c : Char) (rest : List Char) : Except ParseError (Token × Cursor) :=
  let (equals, behind) : Bool × Cursor := match rest with
    | '=' :: rest => (true, ⟨offset + c.utf8Size + 1, rest⟩)
    | rest => (false, ⟨offset + c.utf8Size, rest⟩)
  match signOf? c equals with
  | some found => .ok (.sign found, behind)
  | none => .error (.unexpectedChar c offset)

/-- The token that starts with `c` at an offset, and the place behind it. -/
def next? (offset : Nat) (c : Char) (rest : List Char) : Option (Except ParseError (Token × Cursor)) :=
  if c = '$' then sigil? text offset (offset + 1) rest
  else if c = '\'' then
    return (quoted offset (offset + 1) rest).map fun (content, last) =>
      (.operand (.literal (.text (String.ofList content))), last)
  else if Decimal.isDigit c || (c = '-' && rest.head?.any Decimal.isDigit) then number? text offset (c :: rest)
  else if isUpper c || isLower c || c = '_' then word? text offset (c :: rest)
  else if c = '=' || c = '!' || c = '<' || c = '>' then return operator offset c rest
  else return .error (.unexpectedChar c offset)

/-- The tokens from an offset on; `none` also where a token takes nothing, after which there would be no end. -/
def scan? (offset : Nat) (rest : List Char) : Option (Except ParseError (List Lexeme)) :=
  match rest with
  | [] => some (.ok [])
  | c :: rest =>
    if Text.isBlank c then scan? (offset + c.utf8Size) rest
    else match next? text offset c rest with
      | none => none
      | some (.error fault) => some (.error fault)
      | some (.ok (token, last)) =>
        if _shorter : last.rest.length ≤ rest.length then
          (scan? last.offset last.rest).map fun found => found.map (⟨token, offset⟩ :: ·)
        else none
  termination_by rest.length
  decreasing_by
    · simp
    · simp only [List.length_cons]
      omega

end Scanning

/-! ## No cut fails -/

theorem not_endsOperand_of_isIdent {c : Char} (ident : isIdent c = true) : endsOperand c = false := by
  by_contra ends
  have inside := Expression.isIdent_code ident
  have outside := Expression.endsOperand_code (by simpa using ends)
  omega

/-- Some characters none of which ends an operand. -/
def Whole (word : List Char) : Prop := ∀ c ∈ word, endsOperand c = false

/-- A result of reading what stands behind some place, with the places in a text. -/
def located {α : Type} (text : List Char) (found : Except ParseError (α × List Char)) :
    Except ParseError (α × Cursor) :=
  found.map fun (value, rest) => (value, cursor text rest)

variable {text word rest : List Char}

theorem whole_takeWhile (rest : List Char) : Whole (rest.takeWhile isIdent) :=
  fun _ member => not_endsOperand_of_isIdent (List.mem_takeWhile_imp member)

theorem Whole.append {more : List Char} (whole : Whole word) (others : Whole more) : Whole (word ++ more) :=
  fun c member => (List.mem_append.mp member).elim (whole c) (others c)

/-- The fault of an operand is cut out from its start, though it was found further on. -/
theorem invalid?_eq (last : word ++ rest <:+ text) (whole : Whole word) :
    invalid? text (cursor text (word ++ rest)).offset (cursor text rest).offset rest =
      some (invalid (cursor text (word ++ rest)).offset (word ++ rest)) := by
  have inner : rest <:+ text := (List.suffix_append word rest).trans last
  have taken : (word ++ rest).takeWhile (!endsOperand ·) = word ++ rest.takeWhile (!endsOperand ·) :=
    List.takeWhile_append_of_pos fun c member => by simpa using whole c member
  have dropped : (word ++ rest).dropWhile (!endsOperand ·) = rest.dropWhile (!endsOperand ·) :=
    List.dropWhile_append_of_pos fun c member => by simpa using whole c member
  have stop : (if (cursor text (rest.dropWhile (!endsOperand ·))).rest.isEmpty then Text.byteLength text
      else (cursor text (rest.dropWhile (!endsOperand ·))).offset) =
      (cursor text (rest.dropWhile (!endsOperand ·))).offset := by
    split
    · rename_i empty
      have nothing : rest.dropWhile (!endsOperand ·) = [] := List.isEmpty_iff.mp empty
      rw [nothing]
      rfl
    · rfl
  have cut := Text.slice?_past (!endsOperand ·) last
  rw [dropped] at cut
  simp only [invalid?, Text.past_cursor _ inner, stop, cut, invalid]
  rfl

/-- A further segment is a further part that holds no end of an operand. -/
theorem whole_segment {after : List Char} (whole : Whole word) :
    Whole (word ++ '.' :: after.takeWhile isIdent) :=
  whole.append (List.forall_mem_cons.mpr ⟨by decide, whole_takeWhile after⟩)

theorem append_segment (word after : List Char) :
    word ++ '.' :: after = (word ++ '.' :: after.takeWhile isIdent) ++ after.dropWhile isIdent := by
  rw [List.append_assoc, List.cons_append, List.takeWhile_append_dropWhile]

theorem segments?_cons {after : List Char} (start : Nat) (last : '.' :: after <:+ text) :
    segments? text start (cursor text ('.' :: after)).offset ('.' :: after) =
      if (after.takeWhile isIdent).isEmpty then
        (invalid? text start (cursor text (after.dropWhile isIdent)).offset (after.dropWhile isIdent)).map .error
      else
        (segments? text start (cursor text (after.dropWhile isIdent)).offset (after.dropWhile isIdent)).map
          (·.map fun (more, last) => (String.ofList (after.takeWhile isIdent) :: more, last)) := by
  have behind : after <:+ text := (List.suffix_cons '.' after).trans last
  have step : (cursor text ('.' :: after)).offset + 1 = (cursor text after).offset := Text.offset_cons last
  rw [segments?, step, Text.past_cursor _ behind]
  simp only [Text.slice?_past _ behind, Option.bind_some]
  rfl

/-- The fault that is found behind some segments starts with the part before them, which holds no end of an operand. -/
theorem segments?_eq (last : word ++ rest <:+ text) (whole : Whole word) :
    segments? text (cursor text (word ++ rest)).offset (cursor text rest).offset rest =
      some (match Token.segments? rest with
        | some (found, after) => .ok (found, cursor text after)
        | none => .error (invalid (cursor text (word ++ rest)).offset (word ++ rest))) := by
  fun_induction Token.segments? rest generalizing word with
  | case1 after segment =>
    rename_i empty
    have fault := invalid?_eq (append_segment word after ▸ last) (whole_segment whole)
    rw [← append_segment] at fault
    rw [segments?_cons _ ((List.suffix_append word _).trans last), if_pos empty, fault, Option.map_some]
  | case2 after segment =>
    rename_i nonempty ih
    have found := ih (append_segment word after ▸ last) (whole_segment whole)
    rw [← append_segment] at found
    rw [segments?_cons _ ((List.suffix_append word _).trans last), if_neg nonempty, found, Option.map_some]
    cases Token.segments? (after.dropWhile isIdent) <;> rfl
  | case3 rest other =>
    rw [segments?]
    · rfl
    · exact other

theorem named?_eq (last : word ++ rest <:+ text) (whole : Whole word) (name : List Char) :
    named? text (cursor text (word ++ rest)).offset name (cursor text rest) =
      some (located text (
        if isVariableName name then
          match Token.segments? rest with
          | some (segments, after) => .ok (.operand (.named (String.ofList name) segments), after)
          | none => .error (invalid (cursor text (word ++ rest)).offset (word ++ rest))
        else .error (invalid (cursor text (word ++ rest)).offset (word ++ rest)))) := by
  unfold named?
  split
  · rw [Text.cursor_rest, segments?_eq last whole]
    cases Token.segments? rest <;> rfl
  · rw [Text.cursor_rest, invalid?_eq last whole]
    rfl

theorem sigil?_eq (last : '$' :: rest <:+ text) :
    sigil? text (cursor text ('$' :: rest)).offset (cursor text rest).offset rest =
      some (located text (sigil (cursor text ('$' :: rest)).offset rest)) := by
  have dollar : Whole ['$'] := List.forall_mem_singleton.mpr (by decide)
  have behind : rest <:+ text := (List.suffix_cons '$' rest).trans last
  have opened : ['$'] ++ rest <:+ text := last
  have fault := invalid?_eq opened dollar
  rw [List.singleton_append] at fault
  cases rest with
  | nil =>
    rw [sigil?, fault]
    rfl
  | cons c rest =>
    rw [sigil?, sigil]
    split
    · rename_i point
      subst point
      have found := segments?_eq opened dollar
      rw [List.singleton_append] at found
      rw [found]
      cases Token.segments? ('.' :: rest) <;> rfl
    split
    · have cut : '$' :: c :: rest = ('$' :: (c :: rest).takeWhile isIdent) ++ (c :: rest).dropWhile isIdent := by
        rw [List.cons_append, List.takeWhile_append_dropWhile]
      have found := named?_eq (cut ▸ last) (dollar.append (whole_takeWhile (c :: rest)))
        ((c :: rest).takeWhile isIdent)
      rw [List.singleton_append, ← cut] at found
      simp only [sigil.invalidPath, ← cut]
      refine Eq.trans ?_ found
      rw [Text.past_cursor _ behind, Text.slice?_past _ behind, Option.bind_some]
    · rw [fault]
      rfl

/-- The content of a text literal is what it is character by character, and the place behind it is found by counting. -/
theorem quoted_eq (start : Nat) (last : rest <:+ text) :
    quoted start (cursor text rest).offset rest =
      (Token.quoted? rest).elim (.error (.unterminatedString start)) fun (content, after) =>
        .ok (content, cursor text after) := by
  fun_induction Token.quoted? rest with
  | case1 => rfl
  | case2 after =>
    have step : (cursor text ('\'' :: after)).offset + 1 = (cursor text after).offset := Text.offset_cons last
    rw [quoted, step]
    rfl
  | case3 => rfl
  | case4 c after ih =>
    have behind : c :: after <:+ text := (List.suffix_cons '\\' _).trans last
    have step : (cursor text ('\\' :: c :: after)).offset + 1 = (cursor text (c :: after)).offset :=
      Text.offset_cons last
    rw [quoted, step, Text.offset_cons behind, ih ((List.suffix_cons c after).trans behind)]
    cases Token.quoted? after <;> rfl
  | case5 c after quote single backslash ih =>
    rw [quoted, Text.offset_cons last, ih ((List.suffix_cons c after).trans last)]
    · cases Token.quoted? after <;> rfl
    · exact quote
    · exact single
    · exact backslash

theorem numeral_append (rest : List Char) : (Token.numeral rest).1 ++ (Token.numeral rest).2 = rest := by
  unfold Token.numeral
  split
  · rw [List.cons_append, List.takeWhile_append_dropWhile]
  · exact List.takeWhile_append_dropWhile

theorem numeral_eq (last : rest <:+ text) :
    numeral (cursor text rest).offset rest = cursor text (Token.numeral rest).2 := by
  unfold numeral
  split
  · rename_i digits
    have step : (cursor text ('-' :: digits)).offset + 1 = (cursor text digits).offset := Text.offset_cons last
    rw [step]
    exact Text.past_cursor _ ((List.suffix_cons '-' digits).trans last)
  · rename_i unsigned
    rw [Token.numeral]
    · exact Text.past_cursor _ last
    · exact unsigned

theorem number?_eq (last : rest <:+ text) :
    number? text (cursor text rest).offset rest = some (located text (number (cursor text rest).offset rest)) := by
  have cut := numeral_append rest
  have taken := Text.slice?_cursor (cut.symm ▸ last)
  have behind : (Token.numeral rest).2 <:+ text := (List.suffix_append _ _).trans (cut.symm ▸ last)
  rw [cut] at taken
  rw [number?, number]
  simp only [numeral_eq last, Text.cursor_rest, Text.past_cursor _ behind, Text.slice?_past _ behind, taken,
    Option.bind_some, Option.map_some]
  split
  · rfl
  split
  · rfl
  cases Double.ofText? (Token.numeral rest).1 <;> rfl

theorem word?_eq (last : rest <:+ text) :
    word? text (cursor text rest).offset rest = some (located text (Token.word (cursor text rest).offset rest)) := by
  have cut : rest = rest.takeWhile isIdent ++ rest.dropWhile isIdent := by simp
  have found := named?_eq (cut ▸ last) (whole_takeWhile rest) (rest.takeWhile isIdent)
  rw [← cut] at found
  simp only [word?, Token.word, Text.past_cursor _ last, Text.slice?_past _ last, Option.bind_some, found]
  split
  · rfl
  split
  · rfl
  · rfl

theorem operator_eq {c : Char} (last : c :: rest <:+ text) :
    operator (cursor text (c :: rest)).offset c rest =
      located text (Token.operator (cursor text (c :: rest)).offset c rest) := by
  have behind : rest <:+ text := (List.suffix_cons c rest).trans last
  unfold operator
  rw [Text.offset_cons last]
  split
  rename_i equals place same
  split at same
  · rename_i after
    have step : (cursor text ('=' :: after)).offset + 1 = (cursor text after).offset := Text.offset_cons behind
    rw [step] at same
    cases same
    have double : Token.operator (cursor text (c :: '=' :: after)).offset c ('=' :: after) =
        match signOf? c true with
        | some found => .ok (.sign found, after)
        | none => .error (.unexpectedChar c (cursor text (c :: '=' :: after)).offset) := rfl
    rw [double]
    cases signOf? c true <;> rfl
  · rename_i single
    cases same
    have plain : Token.operator (cursor text (c :: rest)).offset c rest = match signOf? c false with
        | some found => .ok (.sign found, rest)
        | none => .error (.unexpectedChar c (cursor text (c :: rest)).offset) := by
      unfold Token.operator
      split
      rename_i equals after same
      split at same
      · exact absurd rfl (single _)
      · cases same
        rfl
    rw [plain]
    cases signOf? c false <;> rfl

/-- No cut fails on the way to a token, and it is the token found character by character. -/
theorem next?_eq {c : Char} (last : c :: rest <:+ text) :
    next? text (cursor text (c :: rest)).offset c rest =
      some (located text (next (cursor text (c :: rest)).offset c rest)) := by
  have behind : rest <:+ text := (List.suffix_cons c rest).trans last
  unfold next? next
  split
  · rename_i dollar
    subst dollar
    have step : (cursor text ('$' :: rest)).offset + 1 = (cursor text rest).offset := Text.offset_cons last
    rw [step, sigil?_eq last]
  split
  · rename_i quote
    subst quote
    have step : (cursor text ('\'' :: rest)).offset + 1 = (cursor text rest).offset := Text.offset_cons last
    rw [step, quoted_eq _ behind]
    cases Token.quoted? rest <;> rfl
  split
  · exact number?_eq last
  split
  · exact word?_eq last
  split
  · exact congrArg some (operator_eq last)
  · rfl

theorem next_suffix {offset : Nat} {c : Char} {token : Token} {after : List Char}
    (found : next offset c rest = .ok (token, after)) : after <:+ c :: rest :=
  have ⟨taken, cut, _⟩ := Expression.next_sound found
  ⟨taken, cut.symm⟩

/-- What a token took is what stands before the rest. -/
theorem take_of_append {c : Char} {part after : List Char} (cut : c :: rest = part ++ after) :
    (c :: rest).take (rest.length + 1 - after.length) = part := by
  show (c :: rest).take ((c :: rest).length - after.length) = part
  rw [cut, List.length_append, Nat.add_sub_cancel, List.take_left]

/-- The offset behind a token is the one that counting its characters gives. -/
theorem offset_take {c : Char} {after : List Char} (last : c :: rest <:+ text) (inner : after <:+ c :: rest) :
    (cursor text after).offset = (cursor text (c :: rest)).offset +
      Text.byteLength ((c :: rest).take (rest.length + 1 - after.length)) := by
  obtain ⟨part, cut⟩ := inner
  rw [take_of_append cut.symm]
  rw [← cut] at last ⊢
  exact (Text.offset_append last).symm

theorem scan?_token {c : Char} {token : Token} {after : List Char} (plain : ¬Text.isBlank c = true)
    (found : next (cursor text (c :: rest)).offset c rest = .ok (token, after)) (last : c :: rest <:+ text) :
    scan? text (cursor text (c :: rest)).offset (c :: rest) =
      (scan? text (cursor text after).offset after).map
        (·.map (⟨token, (cursor text (c :: rest)).offset⟩ :: ·)) := by
  rw [scan?, if_neg plain, next?_eq last, found]
  exact dif_pos (length_next found)

/-- No cut fails in any text, and the tokens are those found character by character. -/
theorem scan?_eq (last : rest <:+ text) :
    scan? text (cursor text rest).offset rest = some (scan (cursor text rest).offset rest) := by
  generalize place : (cursor text rest).offset = offset
  fun_induction scan offset rest with
  | case1 => rw [scan?]
  | case2 offset c rest blank ih =>
    subst place
    rw [scan?, if_pos blank]
    exact ih ((List.suffix_cons c rest).trans last) (Text.offset_cons last).symm
  | case3 offset c rest plain fault failed =>
    subst place
    rw [scan?, if_neg plain, next?_eq last, failed]
    rfl
  | case4 offset c rest plain token after found taken fault failed ih =>
    subst place
    have inner := next_suffix found
    have behind : (cursor text after).offset = (cursor text (c :: rest)).offset + Text.byteLength taken :=
      offset_take last inner
    rw [scan?_token plain found last, behind, ih (inner.trans last) behind, failed]
    rfl
  | case5 offset c rest plain token after found taken more scanned ih =>
    subst place
    have inner := next_suffix found
    have behind : (cursor text after).offset = (cursor text (c :: rest)).offset + Text.byteLength taken :=
      offset_take last inner
    rw [scan?_token plain found last, behind, ih (inner.trans last) behind, scanned]
    rfl

end Token.Sliced
end ThreatModel
