import ThreatModel.Json.Writer
import ThreatModel.Yaml.Schema

/-!
# Writing YAML texts

Records are written in block style, a field to a line, and lists are not indented in their records. A text
is plain where that reads back as the same text; texts of several lines are literal blocks.
-/

namespace ThreatModel.Yaml

/-! ## What a text allows -/

/-- Whether a character needs no escape. -/
def isPrintable (c : Char) : Bool :=
  c = '\n' || ('\x20' ≤ c && c ≤ '\x7e') || ('\xa0' ≤ c && c ≤ '\ufffd' && c ≠ '\ufeff') || 0x10000 ≤ c.toNat

/-- The characters that no plain scalar starts with. -/
def isLeadingIndicator (c : Char) : Bool :=
  c ∈ ['#', ',', '[', ']', '\x7b', '\x7d', '&', '*', '!', '|', '>', '\'', '"', '%', '@', '\x60']

/-- Whether a text starts with what could be taken for something else than a scalar. -/
def startsAsIndicator : List Char → Bool
  | '-' :: '-' :: '-' :: _ => true
  | '.' :: '.' :: '.' :: _ => true
  | c :: rest => isLeadingIndicator c || ((c = '?' || c = ':' || c = '-') && endsWord rest)
  | [] => false

/-- Whether a colon before a blank, or a number sign behind one, stands after the first character `before`. -/
def hasInnerIndicator (before : Char) : List Char → Bool
  | [] => false
  | c :: rest =>
    (c = ':' && endsWord rest) || (c = '#' && (isGap before || isBreak before)) || hasInnerIndicator c rest

/-- Whether two neighbours satisfy a test. -/
def hasNeighbours (test : Char → Char → Bool) : List Char → Bool
  | a :: b :: rest => test a b || hasNeighbours test (b :: rest)
  | _ => false

/-- Whether a space stands before a line break. -/
def hasSpaceBreak (text : List Char) : Bool := hasNeighbours (fun a b => a = ' ' && isBreak b) text

/-- Whether a line starts with a space after a line break. -/
def hasBreakSpace (text : List Char) : Bool := hasNeighbours (fun a b => isBreak a && b = ' ') text

/-- Whether a text may stand without quotes. -/
def allowsPlain (text : List Char) : Bool :=
  match text with
  | [] => true
  | first :: rest =>
    text.all (fun c => isPrintable c && !isBreak c) && first ≠ ' ' && text.getLast? ≠ some ' ' &&
    !startsAsIndicator text && !hasInnerIndicator first rest

/-- Whether a text may stand between single quotes. -/
def allowsSingleQuotes (text : List Char) : Bool :=
  text.all isPrintable && !hasSpaceBreak text && !hasBreakSpace text

/-- Whether a text may be a literal block. -/
def allowsLiteral (text : List Char) : Bool :=
  !text.isEmpty && text.all isPrintable && !hasSpaceBreak text && text.getLast? ≠ some ' '

/-- Whether a text would be read as something else than a text if it were plain. -/
def isAmbiguous (text : String) : Bool :=
  Schema.isZeroPadded text.toList ||
    match Schema.plainDatum text with
    | .ok (.text _) => false
    | _ => true

/-- The style that a text is written in. -/
def styleOf (text : String) : Style :=
  let chars := text.toList
  if '\n' ∈ chars then (if allowsLiteral chars then .literal else .doubleQuoted)
  else if !isAmbiguous text && allowsPlain chars then .plain
  else if allowsSingleQuotes chars then .singleQuoted
  else .doubleQuoted

/-! ## Scalars -/

def spaces (count : Nat) : List Char := List.replicate count ' '

/-- Characters with the indentation after their line breaks. -/
def indentLines (indent : Nat) (afterBreak : Bool) : List Char → List Char
  | [] => []
  | c :: rest =>
    if isBreak c then c :: indentLines indent true rest
    else (if afterBreak then spaces indent else []) ++ c :: indentLines indent false rest

/-- The letter of an escape between double quotes. -/
def escapeLetter? (c : Char) : Option Char :=
  [('\x00', '0'), ('\x07', 'a'), ('\x08', 'b'), ('\t', 't'), ('\n', 'n'), ('\x0b', 'v'), ('\x0c', 'f'),
    ('\r', 'r'), ('\x1b', 'e'), ('"', '"'), ('\\', '\\'), ('\x85', 'N'), ('\u2028', 'L'),
    ('\u2029', 'P')].lookup c

/-- A number in a given count of hexadecimal digits, the letters being capitals. -/
def hexCapitals : Nat → Nat → List Char
  | 0, _ => []
  | count + 1, n => hexCapitals count (n / 16) ++ [(Nat.digitChar (n % 16)).toUpper]

/-- An escape by number. -/
def numericEscape (n : Nat) : List Char :=
  if n ≤ 0xFF then 'x' :: hexCapitals 2 n
  else if n ≤ 0xFFFF then 'u' :: hexCapitals 4 n
  else 'U' :: hexCapitals 8 n

/-- A character as it stands between double quotes. -/
def escapeChar (c : Char) : List Char :=
  if isPrintable c && !isBreak c && c ≠ '"' && c ≠ '\\' then [c]
  else match escapeLetter? c with
    | some letter => ['\\', letter]
    | none => '\\' :: numericEscape c.toNat

/-- The signs behind `|` that say how the block is indented, if it starts with a blank, and what becomes of
the breaks at its end. -/
def literalSigns (text : List Char) : List Char :=
  let indentation := match text with
    | c :: _ => if c = ' ' || isBreak c then ['2'] else []
    | [] => []
  let chomping := match text.reverse with
    | [] => ['-']
    | [last] => if isBreak last then ['+'] else ['-']
    | last :: before :: _ => if !isBreak last then ['-'] else if isBreak before then ['+'] else []
  indentation ++ chomping

/-- A text as a scalar whose further lines are indented. -/
def scalarChars (indent : Nat) (text : String) : List Char :=
  let chars := text.toList
  match styleOf text with
  | .plain | .folded => chars
  | .singleQuoted =>
    let doubled := chars.flatMap fun c => if c = '\'' then ['\'', '\''] else [c]
    let closing := if chars.getLast?.any isBreak then spaces indent else []
    '\'' :: (indentLines indent false doubled ++ closing ++ ['\''])
  | .doubleQuoted => '"' :: (chars.flatMap escapeChar ++ ['"'])
  | .literal => '|' :: (literalSigns chars ++ '\n' :: indentLines indent true chars)

/-! ## Values -/

/-- A line with its end, unless it ends with a break already. -/
def endLine (line : List Char) : List Char :=
  if line.getLast?.any isBreak then line else line ++ ['\n']

/-- A scalar as it stands behind the sign of its field or item; none for a container that is not empty. -/
def inline? (indent : Nat) : Json → Option (List Char)
  | .text content => some (scalarChars indent content)
  | .array [] => some ['[', ']']
  | .object [] => some ['\x7b', '\x7d']
  | .array _ | .object _ => none
  | value => value.scalarText?.map String.toList

mutual
/-- The lines of a value that stands behind a dash, which is at a column. -/
def itemChars (column : Nat) : Json → List Char
  | .array items =>
    if items.isEmpty then [' ', '[', ']', '\n'] else ' ' :: (itemsChars (column + 2) items).drop (column + 2)
  | .object fields =>
    if fields.isEmpty then [' ', '\x7b', '\x7d', '\n']
    else ' ' :: (fieldsChars (column + 2) fields).drop (column + 2)
  | value => endLine (' ' :: (inline? (column + 2) value).getD [])

/-- The lines of the items of a list, whose dashes are at a column. -/
def itemsChars (column : Nat) : List Json → List Char
  | [] => []
  | item :: rest => spaces column ++ '-' :: (itemChars column item ++ itemsChars column rest)

/-- The lines of a value that stands behind the name of its field, which is at a column. -/
def fieldChars (column : Nat) : Json → List Char
  | .array items => if items.isEmpty then [' ', '[', ']', '\n'] else '\n' :: itemsChars column items
  | .object fields =>
    if fields.isEmpty then [' ', '\x7b', '\x7d', '\n'] else '\n' :: fieldsChars (column + 2) fields
  | value => endLine (' ' :: (inline? (column + 2) value).getD [])

/-- The lines of the fields of a record, whose names are words at a column. -/
def fieldsChars (column : Nat) : List (String × Json) → List Char
  | [] => []
  | (name, value) :: rest =>
    spaces column ++ name.toList ++ ':' :: (fieldChars column value ++ fieldsChars column rest)
end

/-- The text of a record, whose names of fields are words. -/
def write : Json → String
  | .object fields =>
    String.ofList (if fields.isEmpty then ['\x7b', '\x7d', '\n'] else fieldsChars 0 fields)
  | .array items => String.ofList (if items.isEmpty then ['[', ']', '\n'] else itemsChars 0 items)
  | value => String.ofList (endLine ((inline? 2 value).getD []))

end ThreatModel.Yaml
