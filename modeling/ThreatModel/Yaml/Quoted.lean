import ThreatModel.Json.Reader
import ThreatModel.Yaml.Cursor

/-!
# Quoted scalars

Between single quotes a quote is written twice and nothing is escaped. Between double quotes a backslash
escapes. Line breaks are folded in both.
-/

namespace ThreatModel.Yaml.Quoted

/-- The character of an escape of one letter. -/
def escaped? : Char → Option Char
  | '0' => some '\x00'
  | 'a' => some '\x07'
  | 'b' => some '\x08'
  | 't' | '\t' => some '\t'
  | 'n' => some '\n'
  | 'v' => some '\x0b'
  | 'f' => some '\x0c'
  | 'r' => some '\r'
  | 'e' => some '\x1b'
  | ' ' => some ' '
  | '"' => some '"'
  | '/' => some '/'
  | '\\' => some '\\'
  | 'N' => some '\x85'
  | '_' => some '\xa0'
  | 'L' => some '\u2028'
  | 'P' => some '\u2029'
  | _ => none

/-- How many hexadecimal digits follow the letter of a numeric escape. -/
def codeLength? : Char → Option Nat
  | 'x' => some 2
  | 'u' => some 4
  | 'U' => some 8
  | _ => none

/-- The number that hexadecimal digits denote. -/
def hexNumber? (digits : List Char) : Option Nat :=
  digits.foldlM (fun number digit => (Json.hexValue? digit).map (number * 16 + ·)) 0

/-- The character of a numeric escape of `count` digits. -/
def coded? (count : Nat) (text : List Char) : Option Char := do
  let digits := text.take count
  if digits.length < count then none
  else
    let code ← hexNumber? digits
    if (0xD800 ≤ code && code ≤ 0xDFFF) || 0x10FFFF < code then none else some (Char.ofNat code)

/-- The character of the escape that follows a backslash, and how many characters the escape has. -/
def escape? : List Char → Option (Char × Nat)
  | [] => none
  | letter :: rest =>
    match codeLength? letter with
    | some count => (coded? count rest).map fun char => (char, count + 1)
    | none => (escaped? letter).map fun char => (char, 1)

/-- How a word between quotes ends. -/
inductive Stop
  /-- At a blank, a break, the closing quote or the end of the text. -/
  | plain
  /-- At an escaped line break, which is passed over. -/
  | escapedBreak

/-- Reads a word between quotes. -/
def word? (double : Bool) : Nat → Cursor → Option (List Char × Stop × Cursor)
  | 0, _ => none
  | fuel + 1, cursor =>
    match cursor.rest with
    | [] => some ([], .plain, cursor)
    | c :: rest =>
      if isGap c || isBreak c then some ([], .plain, cursor)
      else if !double && c = '\'' then
        if rest.head? = some '\'' then next '\'' (word? double fuel (cursor.advance 2))
        else some ([], .plain, cursor)
      else if double && c = '"' then some ([], .plain, cursor)
      else if double && c = '\\' then
        match (cursor.advance 1).break? with
        | some (_, cursor) => some ([], .escapedBreak, cursor)
        | none => do
          let (char, count) ← escape? rest
          next char (word? double fuel (cursor.advance (count + 1)))
      else next c (word? double fuel (cursor.advance 1))
where
  next (char : Char) (word : Option (List Char × Stop × Cursor)) : Option (List Char × Stop × Cursor) :=
    word.map fun (chars, stop, cursor) => (char :: chars, stop, cursor)

/-- Reads the words and gaps up to the closing quote. -/
def content? (double : Bool) : Nat → List Char → Cursor → Option (List Char × Cursor)
  | 0, _, _ => none
  | fuel + 1, taken, cursor =>
    if cursor.atDocumentMarker || cursor.rest.isEmpty then none
    else do
      let (word, stop, cursor) ← word? double (cursor.rest.length + 1) cursor
      let taken := taken ++ word
      if cursor.sees (if double then '"' else '\'') then some (taken, cursor.advance 1)
      else
        let gap := match stop with
          | .plain => Gap.blanks []
          | .escapedBreak => Gap.breaks none []
        let (gap, cursor) ← gap.take? 0 cursor.rest.length cursor
        content? double fuel (taken ++ gap.fold) cursor

/-- Reads a quoted scalar from its opening quote on. -/
def read? (double : Bool) (cursor : Cursor) : Option (List Char × Cursor) :=
  content? double (cursor.rest.length + 1) [] (cursor.advance 1)

end ThreatModel.Yaml.Quoted
