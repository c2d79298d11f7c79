import ThreatModel.Number.Decimal
import ThreatModel.Yaml.Cursor

/-!
# Block scalars

A block scalar takes whole lines, all indented alike. A literal one keeps its line breaks, a folded one
joins lines that are not indented further. The breaks at its end are kept, cut to one, or stripped.
-/

namespace ThreatModel.Yaml.Block

/-- What becomes of the line breaks at the end. -/
inductive Chomp
  | strip | clip | keep

/-- What the indicators after `|` or `>` say. -/
structure Heading where
  chomp : Chomp := .clip
  /-- How much deeper than its parent the scalar is indented, if this is given. -/
  increment : Option Nat := none

def chompOf? : Char → Option Chomp
  | '+' => some .keep
  | '-' => some .strip
  | _ => none

/-- Reads a digit from 1 to 9, if there is a digit. -/
def increment? (cursor : Cursor) : Option (Option Nat × Cursor) :=
  match cursor.peek? with
  | some c =>
    if c = '0' then none
    else if Decimal.isDigit c then some (some (Decimal.digitValue c), cursor.advance 1)
    else some (none, cursor)
  | none => some (none, cursor)

/-- Reads a sign of chomping, if there is one. -/
def chomping (cursor : Cursor) : Option Chomp × Cursor :=
  match cursor.peek?.bind chompOf? with
  | some chomp => (some chomp, cursor.advance 1)
  | none => (none, cursor)

/-- Reads the two indicators in either order. -/
def heading? (cursor : Cursor) : Option (Heading × Cursor) := do
  match chomping cursor with
  | (some chomp, cursor) =>
    let (increment, cursor) ← increment? cursor
    return (⟨chomp, increment⟩, cursor)
  | (none, cursor) =>
    match ← increment? cursor with
    | (none, cursor) => return ({}, cursor)
    | (some increment, cursor) =>
      let (chomp, cursor) := chomping cursor
      return (⟨chomp.getD .clip, some increment⟩, cursor)

/-- Passes over empty lines and the indentation of the next line, up to `indent` if that is known: the
breaks, the widest indentation and the cursor. A tab may not stand in the indentation. -/
def emptyLines? (indent : Option Nat) : Nat → Nat → List Char → Cursor → Option (List Char × Nat × Cursor)
  | 0, widest, breaks, cursor => some (breaks, widest, cursor)
  | fuel + 1, widest, breaks, cursor =>
    let spaces := (cursor.rest.takeWhile (· = ' ')).length
    let skipped := match indent with
      | some indent => min spaces (indent - cursor.column)
      | none => spaces
    let cursor := cursor.advance skipped
    let widest := max widest cursor.column
    if cursor.sees '\t' && indent.all (cursor.column < ·) then none
    else
      match cursor.break? with
      | none => some (breaks, widest, cursor)
      | some (char, cursor) => emptyLines? indent fuel widest (breaks ++ [char]) cursor

/-- The lines of a scalar as far as they were read. -/
structure Lines where
  text : List Char := []
  /-- The break after the last line, which is not yet part of the text. -/
  lastBreak : Option Char := none
  /-- The breaks of the empty lines after it. -/
  empty : List Char
  /-- Whether the last line starts with a blank. -/
  indented : Bool := false

/-- What the break after the last line becomes when another line follows. -/
def joint (literal : Bool) (lines : Lines) (indented : Bool) : List Char :=
  if !literal && lines.lastBreak = some '\n' && !lines.indented && !indented then
    if lines.empty.isEmpty then [' '] else []
  else lines.lastBreak.toList

/-- Reads the lines that are indented. -/
def lines? (literal : Bool) (indent : Nat) : Nat → Lines → Cursor → Option (Lines × Cursor)
  | 0, lines, cursor => some (lines, cursor)
  | fuel + 1, lines, cursor =>
    match cursor.rest with
    | [] => some (lines, cursor)
    | c :: _ =>
      if cursor.column ≠ indent then some (lines, cursor)
      else do
        let indented := isGap c
        let joined := lines.text ++ joint literal lines indented ++ lines.empty
        let (line, cursor) := cursor.span (!isBreak ·)
        let (lastBreak, cursor) := match cursor.break? with
          | some (char, cursor) => (some char, cursor)
          | none => (none, cursor)
        let (empty, _, cursor) ← emptyLines? (some indent) (cursor.rest.length + 1) 0 [] cursor
        lines? literal indent fuel ⟨joined ++ line, lastBreak, empty, indented⟩ cursor

/-- The text of a scalar with what is left of the breaks at its end. -/
def chomped (chomp : Chomp) (lines : Lines) : List Char :=
  match chomp with
  | .strip => lines.text
  | .clip => lines.text ++ lines.lastBreak.toList
  | .keep => lines.text ++ lines.lastBreak.toList ++ lines.empty

/-- Reads a block scalar from its indicator on. The column `floor` is the first one inside the parent. -/
def read? (literal : Bool) (floor : Nat) (cursor : Cursor) : Option (List Char × Cursor) := do
  let (heading, cursor) ← heading? (cursor.advance 1)
  let cursor ← cursor.finishLine?
  let given := heading.increment.map (floor - 1 + ·)
  let (empty, widest, cursor) ← emptyLines? given (cursor.rest.length + 1) 0 [] cursor
  let indent := given.getD (max widest (max floor 1))
  let (lines, cursor) ← lines? literal indent (cursor.rest.length + 1) { empty } cursor
  return (chomped heading.chomp lines, cursor)

end ThreatModel.Yaml.Block
