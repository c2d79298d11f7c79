import ThreatModel.Json
import ThreatModel.Number.Shortest

/-!
# Writing JSON texts

Two layouts: on one line, or with each item on a line of its own, indented by two blanks a level.
-/

namespace ThreatModel.Json

/-- Two hexadecimal digits. -/
def hexByte (n : Nat) : List Char :=
  [Nat.digitChar (n / 16 % 16), Nat.digitChar (n % 16)]

/-- A character as it stands in a quoted text. -/
def quoteChar (c : Char) : List Char :=
  if c = '"' then ['\\', '"']
  else if c = '\\' then ['\\', '\\']
  else if c = '\x08' then ['\\', 'b']
  else if c = '\t' then ['\\', 't']
  else if c = '\n' then ['\\', 'n']
  else if c = '\x0c' then ['\\', 'f']
  else if c = '\r' then ['\\', 'r']
  else if c.toNat < 0x20 then '\\' :: 'u' :: '0' :: '0' :: hexByte c.toNat
  else [c]

/-- A quoted text. -/
def quote (content : String) : String :=
  String.ofList ('"' :: (content.toList.flatMap quoteChar ++ ['"']))

/-- A scalar value; none for a container. -/
def scalarText? : Json → Option String
  | null => some "null"
  | truth true => some "true"
  | truth false => some "false"
  | int value => some (toString value)
  | double value =>
    some (if value.isFinite then String.ofList (Shortest.text Shortest.data value) else "null")
  | text content => some (quote content)
  | array _ | object _ => none

mutual
/-- A value on one line. -/
def compact : Json → String
  | null => "null"
  | truth value => if value then "true" else "false"
  | int value => toString value
  | double value => (scalarText? (double value)).getD "null"
  | text content => quote content
  | array items => "[" ++ ",".intercalate (compactItems items) ++ "]"
  | object fields => "\x7b" ++ ",".intercalate (compactFields fields) ++ "\x7d"

def compactItems : List Json → List String
  | [] => []
  | item :: rest => compact item :: compactItems rest

def compactFields : List (String × Json) → List String
  | [] => []
  | (name, value) :: rest => (quote name ++ ":" ++ compact value) :: compactFields rest
end

/-- A line break and the indentation of a level. -/
def breakTo (level : Nat) : String := "\n" ++ String.ofList (List.replicate (2 * level) ' ')

/-- Parts on lines of their own between brackets. -/
def block (opening closing : String) (level : Nat) (parts : List String) : String :=
  if parts.isEmpty then opening ++ closing
  else
    let separator := "," ++ breakTo (level + 1)
    opening ++ breakTo (level + 1) ++ separator.intercalate parts ++ breakTo level ++ closing

mutual
/-- A value on several lines, inside `level` containers. -/
def indented (level : Nat) : Json → String
  | array items => block "[" "]" level (indentedItems (level + 1) items)
  | object fields => block "\x7b" "\x7d" level (indentedFields (level + 1) fields)
  | value => (scalarText? value).getD ""

def indentedItems (level : Nat) : List Json → List String
  | [] => []
  | item :: rest => indented level item :: indentedItems level rest

def indentedFields (level : Nat) : List (String × Json) → List String
  | [] => []
  | (name, value) :: rest => (quote name ++ ": " ++ indented level value) :: indentedFields level rest
end

/-- A value on several lines. -/
def pretty (value : Json) : String := indented 0 value

end ThreatModel.Json
