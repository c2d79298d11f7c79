import ThreatModel.Environment
import ThreatModel.Number.Decimal
import ThreatModel.Text.Blank
import ThreatModel.Text.Letter

/-!
# Assignments of an environment file

An assignment is a name, an equals sign and a value. In a value, double quotes and backslashes take blanks and
signs as they are, single quotes take all, and a name behind a dollar sign stands for the value of a variable.
-/

namespace ThreatModel.EnvironmentFile

/-! ## Values -/

/-- Where in a value its next character stands. Whether it stands in double quotes is kept apart from what
has to end before that matters again. -/
inductive Position
  | plain (quoted : Bool)
  | escaped (quoted : Bool)
  /-- In single quotes. -/
  | strong
  /-- In a name behind a dollar sign. -/
  | name (quoted : Bool) (start : List Char)
  /-- In a name in braces. -/
  | braced (quoted : Bool) (start : List Char)
  /-- Behind the value. -/
  | ending

/-- What a character stands for behind a backslash. -/
def escape? (c : Char) : Option Char :=
  if c = 'n' then some '\n'
  else if c ∈ ['\\', '\'', '"', '$', ' '] then some c
  else none

/-- The value of a variable; nothing if it has none. -/
def substitute (environment : Environment) (name : List Char) : List Char :=
  ((environment.get? (String.ofList name)).getD "").toList

/-- The position after a character of a value, in double quotes or outside of quotes, and what is added. -/
def plainNext (quoted : Bool) (c : Char) : Position × List Char :=
  if c = '$' then (.name quoted [], [])
  else if c = '\\' then (.escaped quoted, [])
  else if c = '"' then (.plain (!quoted), [])
  else if quoted then (.plain true, [c])
  else if c = '\'' then (.strong, [])
  else if c = ' ' || c = '\t' then (.ending, [])
  else (.plain false, [c])

/-- The position after a character, and what is added to the value; none where the character may not stand. -/
def next? (environment : Environment) (c : Char) : Position → Option (Position × List Char)
  | .plain quoted => some (plainNext quoted c)
  | .escaped quoted => (escape? c).map fun taken => (.plain quoted, [taken])
  | .strong => some (if c = '\'' then (.plain false, []) else (.strong, [c]))
  | .name quoted start =>
    if Text.isLetterOrDigit c then some (.name quoted (start ++ [c]), [])
    else if c = '\x7b' && start.isEmpty then some (.braced quoted [], [])
    else if c = '$' then some (.name quoted [], substitute environment start)
    else some (.plain quoted, substitute environment start ++ [c])
  | .braced quoted start =>
    if c = '\x7d' then some (.plain quoted, substitute environment start)
    else some (.braced quoted (start ++ [c]), [])
  | .ending => if c = ' ' || c = '\t' then some (.ending, []) else none

/-- What is added where a value ends; none where it may not end. -/
def last? (environment : Environment) : Position → Option (List Char)
  | .plain false | .escaped false | .ending => some []
  | .name false start => some (substitute environment start)
  | _ => none

/-- Reads a value from a position. A comment may stand behind it. -/
def readValue (environment : Environment) (position : Position) : List Char → Option (List Char)
  | [] => last? environment position
  | c :: rest =>
    match position, c with
    | .ending, '#' => some []
    | position, c => do
      let (position, added) ← next? environment c position
      return added ++ (← readValue environment position rest)

/-! ## Assignments -/

/-- What the text of an assignment gives. -/
inductive Reading
  /-- Nothing but blanks or a comment. -/
  | nothing
  | assignment (name value : String)
  | malformed

def isLetter (c : Char) : Bool := ('a' ≤ c && c ≤ 'z') || ('A' ≤ c && c ≤ 'Z')

/-- Splits off the name of a variable and the blanks behind it. -/
def name? (text : List Char) : Option (String × List Char) :=
  match text with
  | [] => none
  | first :: _ =>
    if isLetter first || first = '_' then
      let goesOn (c : Char) : Bool := isLetter c || Decimal.isDigit c || c = '_' || c = '.'
      some (String.ofList (text.takeWhile goesOn), Text.trimStart (text.dropWhile goesOn))
    else none

/-- Splits off the name of a variable and the equals sign. The word `export` may stand before the name, and
may be a name itself. -/
def target? (text : List Char) : Option (String × List Char) := do
  let (name, rest) ← name? text
  match rest with
  | '=' :: value => return (name, value)
  | _ =>
    guard (name = "export")
    let (name, rest) ← name? rest
    match rest with
    | '=' :: value => return (name, value)
    | _ => none

/-- Whether a text is empty or a comment. -/
def isBare (text : List Char) : Bool := text.isEmpty || text.head? = some '#'

/-- Reads the text of an assignment. -/
def readAssignment (environment : Environment) (text : List Char) : Reading :=
  let text := Text.trim text
  if isBare text then .nothing
  else
    match target? text with
    | none => .malformed
    | some (name, rest) =>
      let rest := Text.trimStart rest
      if isBare rest then .assignment name ""
      else
        match readValue environment (.plain false) rest with
        | some value => .assignment name (String.ofList value)
        | none => .malformed

end ThreatModel.EnvironmentFile
