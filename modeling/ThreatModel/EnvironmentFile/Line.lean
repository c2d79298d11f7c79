import ThreatModel.Text.Blank

/-!
# Lines of an environment file

An assignment may go on over several lines inside quotes, and ends before a comment. Where it ends is found
from the quotes, blanks and backslashes alone, before the assignment is read.
-/

namespace ThreatModel.EnvironmentFile

/-- What the characters of a line have opened. -/
inductive Opened
  | nothing
  /-- The character before is a blank. -/
  | blank
  | escape
  | weak
  | weakEscape
  | strong
  | strongEscape
  deriving DecidableEq, Repr

/-- What is open after a character outside of quotes that is no blank. -/
def Opened.begin (c : Char) : Opened :=
  if c = '\\' then .escape
  else if c = '"' then .weak
  else if c = '\'' then .strong
  else .nothing

/-- What is open after one more character, which does not begin a comment. -/
def Opened.next (c : Char) : Opened → Opened
  | nothing => if Text.isBlank c && c ≠ '\n' && c ≠ '\r' then blank else begin c
  | blank => begin c
  | escape => nothing
  | weak => if c = '\\' then weakEscape else if c = '"' then nothing else weak
  | weakEscape => weak
  | strong => if c = '\\' then strongEscape else if c = '\'' then nothing else strong
  | strongEscape => strong

/-- How a line ends. -/
inductive LineEnd
  /-- At a comment, before which some characters stand. -/
  | comment (before : List Char)
  | opened (state : Opened)

/-- One more character in front of the end. -/
def LineEnd.after (c : Char) : LineEnd → LineEnd
  | comment before => comment (c :: before)
  | opened state => opened state

/-- How a line ends. A comment begins with a hash behind a blank. -/
def lineEnd (state : Opened) : List Char → LineEnd
  | [] => .opened state
  | c :: rest =>
    if state = .blank && c = '#' then .comment []
    else (lineEnd (state.next c) rest).after c

/-- A line without the line break at its end. -/
def withoutBreak (line : List Char) : List Char :=
  match line.reverse with
  | '\n' :: '\r' :: rest => rest.reverse
  | '\n' :: rest => rest.reverse
  | _ => line

/-- Joins lines to the texts of assignments, where `begun` is the text of the one that has begun and `state`
is what it has opened. A line that is no text, given as none, and an assignment that does not end are faults;
a fault is the last of the results. -/
def assignments (begun : List Char) (state : Opened) :
    List (Option (List Char)) → List (Option (List Char))
  | [] => if state = .nothing then [] else [none]
  | none :: _ => [none]
  | some line :: rest =>
    let text := begun ++ line
    if (Text.trimStart text).head? = some '#' then some [] :: assignments [] .nothing rest
    else
      match lineEnd state line with
      | .comment before => some (begun ++ before) :: assignments [] .nothing rest
      | .opened .nothing => some (withoutBreak text) :: assignments [] .nothing rest
      | .opened state => assignments text state rest

end ThreatModel.EnvironmentFile
