import ThreatModel.Number.Decimal
import ThreatModel.Yaml.Quoted

/-!
# Anchors, tags and directives

What stands beside the nodes of a document: names that refer to nodes, tags that say of what type they
are, and directives in front of the document, which give its version and abbreviations for tags.

The bytes of a tag may be written in hexadecimal. Each character must then have as many of them as its first
byte says, but the bytes need not be those of any character.
-/

namespace ThreatModel.Yaml

/-- The bytes of a tag, which need not make a text. -/
abbrev Tag := List UInt8

/-- The tag of a text whose characters have one byte each. -/
def Tag.ofAscii (text : List Char) : Tag := text.map fun c => c.toNat.toUInt8

/-- An exclamation mark alone. -/
def Tag.mark : Tag := .ofAscii ['!']

/-- A tag as it is written: a handle, which abbreviates the start of the tag, and the rest. -/
structure TagName where
  handle : List Char
  rest : Tag
  deriving DecidableEq, Repr

inductive Directive
  | version (major minor : Nat)
  /-- A handle of tags and what it stands for. -/
  | handle (name : List Char) (expansion : Tag)
  deriving DecidableEq, Repr

namespace Property

/-- The characters that may follow the name of an anchor, blanks and breaks apart. -/
def followsName (c : Char) : Bool :=
  c = '?' || c = ':' || c = ',' || c = ']' || c = '\x7d' || c = '%' || c = '@' || c = '\x60'

/-- Reads the name of an anchor or alias after its sign. -/
def name? (cursor : Cursor) : Option (String × Cursor) :=
  let (name, cursor) := (cursor.advance 1).span isWordChar
  if name.isEmpty then none
  else if cursor.atEnd || cursor.peek?.any followsName then some (String.ofList name, cursor)
  else none

/-! ## Tags -/

/-- The characters of the rest of a tag. -/
def isTagChar (verbatim : Bool) (c : Char) : Bool :=
  isWordChar c || c ∈ [';', '/', '?', ':', '@', '&', '=', '+', '$', '.', '%', '!', '~', '*', '\'', '(', ')'] ||
  (verbatim && c ∈ [',', '[', ']'])

/-- The byte that a percent sign and two hexadecimal digits denote. -/
def byte? : List Char → Option (UInt8 × List Char)
  | '%' :: high :: low :: rest => do
    let high ← Json.hexValue? high
    let low ← Json.hexValue? low
    return ((high * 16 + low).toUInt8, rest)
  | _ => none

/-- How many bytes a character has whose first byte is given. -/
def width? (byte : UInt8) : Option Nat :=
  if byte < 0x80 then some 1
  else if 0xC0 ≤ byte && byte < 0xE0 then some 2
  else if 0xE0 ≤ byte && byte < 0xF0 then some 3
  else if 0xF0 ≤ byte && byte < 0xF8 then some 4
  else none

/-- Reads the further bytes of a character. -/
def tail? : Nat → List Char → Option (List UInt8 × List Char)
  | 0, text => some ([], text)
  | count + 1, text => do
    let (byte, rest) ← byte? text
    if !(0x80 ≤ byte && byte < 0xC0) then none
    let (more, rest) ← tail? count rest
    return (byte :: more, rest)

/-- Reads the bytes of a character that are written in hexadecimal. -/
def escaped? (text : List Char) : Option (List UInt8 × List Char) := do
  let (first, rest) ← byte? text
  let width ← width? first
  let (more, rest) ← tail? (width - 1) rest
  return (first :: more, rest)

/-- Reads the bytes of a tag. -/
def tagBytes? (verbatim : Bool) : Nat → Cursor → Option (List UInt8 × Cursor)
  | 0, cursor => some ([], cursor)
  | fuel + 1, cursor =>
    match cursor.rest with
    | [] => some ([], cursor)
    | c :: _ =>
      if !isTagChar verbatim c then some ([], cursor)
      else if c = '%' then do
        let (bytes, rest) ← escaped? cursor.rest
        let cursor := cursor.advance (cursor.rest.length - rest.length)
        let (more, cursor) ← tagBytes? verbatim fuel cursor
        return (bytes ++ more, cursor)
      else do
        let (more, cursor) ← tagBytes? verbatim fuel (cursor.advance 1)
        return (c.toNat.toUInt8 :: more, cursor)

/-- The bytes up to the first zero, at which a tag ends. -/
def untilZero (bytes : List UInt8) : Tag := bytes.takeWhile (· ≠ 0)

/-- Reads the bytes of a tag, of which there must be one. -/
def tagRest? (verbatim : Bool) (cursor : Cursor) : Option (Tag × Cursor) := do
  let (bytes, cursor) ← tagBytes? verbatim (cursor.rest.length + 1) cursor
  if bytes.isEmpty then none else some (untilZero bytes, cursor)

/-- Reads a handle: an exclamation mark, a word, and another exclamation mark, which may be missing. -/
def handle? (cursor : Cursor) : Option (List Char × Cursor) :=
  if !cursor.sees '!' then none
  else
    let (word, cursor) := (cursor.advance 1).span isWordChar
    if cursor.sees '!' then some ('!' :: word ++ ['!'], cursor.advance 1) else some ('!' :: word, cursor)

/-- Whether a handle is closed by an exclamation mark of its own. -/
def isClosed (handle : List Char) : Bool := 1 < handle.length && handle.getLast? = some '!'

/-- Reads a tag without the characters that must follow it. -/
def tagName? (cursor : Cursor) : Option (TagName × Cursor) := do
  if cursor.rest.take 2 = ['!', '<'] then
    let (rest, cursor) ← tagRest? true (cursor.advance 2)
    if cursor.sees '>' then some (⟨[], rest⟩, cursor.advance 1) else none
  else
    let (handle, cursor) ← handle? cursor
    if isClosed handle then
      let (rest, cursor) ← tagRest? false cursor
      return (⟨handle, rest⟩, cursor)
    else
      let (more, cursor) ← tagBytes? false (cursor.rest.length + 1) cursor
      let rest := untilZero (Tag.ofAscii (handle.drop 1) ++ more)
      return (if rest.isEmpty then ⟨[], .mark⟩ else ⟨['!'], rest⟩, cursor)

/-- Reads a tag, in a flow collection or not. -/
def tag? (flow : Bool) (cursor : Cursor) : Option (TagName × Cursor) := do
  let (tag, cursor) ← tagName? cursor
  if cursor.atEnd || (flow && cursor.sees ',') then some (tag, cursor) else none

/-! ## Directives -/

/-- Reads a number of at most nine digits. -/
def versionPart? (cursor : Cursor) : Option (Nat × Cursor) :=
  let (digits, cursor) := cursor.span Decimal.isDigit
  if digits.isEmpty || 9 < digits.length then none else some (Decimal.value digits, cursor)

/-- Reads a directive from its percent sign to the end of the line. -/
def directive? (cursor : Cursor) : Option (Directive × Cursor) := do
  let (name, cursor) := (cursor.advance 1).span isWordChar
  if !cursor.atEnd then none
  let cursor := cursor.skipWhile isGap
  let (directive, cursor) ←
    if name = "YAML".toList then do
      let (major, cursor) ← versionPart? cursor
      if !cursor.sees '.' then none
      let (minor, cursor) ← versionPart? (cursor.advance 1)
      pure (Directive.version major minor, cursor)
    else if name = "TAG".toList then do
      let (handle, cursor) ← handle? cursor
      if !(isClosed handle || handle = ['!']) then none
      if !(cursor.peek?.any isGap) then none
      let (expansion, cursor) ← tagRest? true (cursor.skipWhile isGap)
      if !cursor.atEnd then none
      pure (Directive.handle handle expansion, cursor)
    else none
  let cursor ← cursor.finishLine?
  return (directive, cursor)

end Property
end ThreatModel.Yaml
