/-!
# Positions in a YAML text

A cursor stands between two characters of a text. Indentation matters in YAML, so it knows its line and
column, and a line break may be written in several ways.
-/

namespace ThreatModel.Yaml

/-- A space or a tab. -/
def isGap (c : Char) : Bool := c = ' ' || c = '\t'

/-- A character that ends a line. -/
def isBreak (c : Char) : Bool :=
  c = '\n' || c = '\r' || c = '\x85' || c = '\u2028' || c = '\u2029'

/-- The characters that a text may hold. -/
def isAllowed (c : Char) : Bool :=
  c = '\t' || c = '\n' || c = '\r' || ('\x20' ≤ c && c ≤ '\x7e') || c = '\x85' ||
  ('\xa0' ≤ c && c ≤ '\ufffd') || 0x10000 ≤ c.toNat

/-- The characters of names of anchors and directives. -/
def isWordChar (c : Char) : Bool :=
  ('0' ≤ c && c ≤ '9') || ('A' ≤ c && c ≤ 'Z') || ('a' ≤ c && c ≤ 'z') || c = '_' || c = '-'

/-- Whether a text goes on with a gap or a break, or not at all. -/
def endsWord : List Char → Bool
  | [] => true
  | c :: _ => isGap c || isBreak c

/-- The break that a text starts with: the character that it stands for, how many characters it is written
with, and the text after it. -/
def break? : List Char → Option (Char × Nat × List Char)
  | '\r' :: '\n' :: rest => some ('\n', 2, rest)
  | c :: rest =>
    if c = '\u2028' || c = '\u2029' then some (c, 1, rest)
    else if isBreak c then some ('\n', 1, rest)
    else none
  | [] => none

/-- A position in a text, with the text after it. -/
structure Cursor where
  rest : List Char
  index : Nat
  line : Nat
  column : Nat

namespace Cursor

/-- The start of a text. -/
def start (text : List Char) : Cursor := ⟨text, 0, 0, 0⟩

/-- Passes over characters that are no breaks. -/
def advance (cursor : Cursor) (count : Nat) : Cursor :=
  { cursor with
    rest := cursor.rest.drop count
    index := cursor.index + count
    column := cursor.column + count }

/-- The characters that a test holds for, and the cursor after them. -/
def span (cursor : Cursor) (test : Char → Bool) : List Char × Cursor :=
  let taken := cursor.rest.takeWhile test
  (taken, cursor.advance taken.length)

def skipWhile (cursor : Cursor) (test : Char → Bool) : Cursor := (cursor.span test).2

/-- Passes over a break. -/
def break? (cursor : Cursor) : Option (Char × Cursor) :=
  (Yaml.break? cursor.rest).map fun (c, count, rest) => (c, ⟨rest, cursor.index + count, cursor.line + 1, 0⟩)

/-- The next character. -/
def peek? (cursor : Cursor) : Option Char := cursor.rest.head?

/-- Whether the next character is the given one. -/
def sees (cursor : Cursor) (c : Char) : Bool := cursor.peek? = some c

/-- Whether a word ends here. -/
def atEnd (cursor : Cursor) : Bool := endsWord cursor.rest

/-- Whether three characters and the end of a word stand at the start of a line. -/
def atMarker (cursor : Cursor) (c : Char) : Bool :=
  cursor.column = 0 && cursor.rest.take 3 = [c, c, c] && endsWord (cursor.rest.drop 3)

/-- Whether a marker of a document's start or end stands here. -/
def atDocumentMarker (cursor : Cursor) : Bool := cursor.atMarker '-' || cursor.atMarker '.'

/-- Passes over blanks and a comment up to the end of the line; a comment needs no blank before it. -/
def finishLine? (cursor : Cursor) : Option Cursor :=
  let cursor := cursor.skipWhile isGap
  let cursor := if cursor.sees '#' then cursor.skipWhile (!isBreak ·) else cursor
  match cursor.rest with
  | [] => some cursor
  | _ => cursor.break?.map (·.2)

end Cursor

/-! ## Gaps -/

/-- What stands between two words of a scalar. -/
inductive Gap
  /-- Blanks on one line. -/
  | blanks (chars : List Char)
  /-- Line breaks, the first of which may be escaped, with blanks around them. -/
  | breaks (first : Option Char) (more : List Char)

namespace Gap

def isBroken : Gap → Bool
  | blanks _ => false
  | breaks _ _ => true

/-- What a gap is read as: a single line break is folded to a space, and the first of several is
dropped. -/
def fold : Gap → List Char
  | blanks chars => chars
  | breaks (some '\n') [] => [' ']
  | breaks (some '\n') more => more
  | breaks first more => first.toList ++ more

/-- Passes over blanks and breaks. A tab left of the column `floor` on a further line is a fault. -/
def take? (floor : Nat) : Nat → Gap → Cursor → Option (Gap × Cursor)
  | 0, gap, cursor => some (gap, cursor)
  | fuel + 1, gap, cursor =>
    match cursor.rest with
    | [] => some (gap, cursor)
    | c :: _ =>
      if isGap c then
        match gap with
        | blanks chars => take? floor fuel (blanks (chars ++ [c])) (cursor.advance 1)
        | breaks _ _ =>
          if c = '\t' && cursor.column < floor then none else take? floor fuel gap (cursor.advance 1)
      else
        match cursor.break? with
        | none => some (gap, cursor)
        | some (char, cursor) =>
          match gap with
          | blanks _ => take? floor fuel (breaks (some char) []) cursor
          | breaks first more => take? floor fuel (breaks first (more ++ [char])) cursor

end Gap
end ThreatModel.Yaml
