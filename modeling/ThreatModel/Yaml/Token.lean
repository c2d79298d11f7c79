import ThreatModel.Yaml.Block
import ThreatModel.Yaml.Plain
import ThreatModel.Yaml.Property

/-!
# Tokens of a YAML text

Indentation is turned into tokens of its own. That something is a key is known only from the colon after
it, so a token that may start a key is held back, with all after it, until this is decided. A key stays on
one line and within 1024 characters.
-/

namespace ThreatModel.Yaml

/-- How a scalar is written. -/
inductive Style
  | plain | singleQuoted | doubleQuoted | literal | folded
  deriving DecidableEq, Repr

inductive Token
  | directive (directive : Directive)
  | documentStart
  | documentEnd
  | blockList
  | blockTable
  | blockEnd
  | flowListStart
  | flowListEnd
  | flowTableStart
  | flowTableEnd
  /-- A dash before an item. -/
  | blockEntry
  /-- A comma. -/
  | flowEntry
  | key
  | value
  | alias (name : String)
  | anchor (name : String)
  | tag (name : TagName)
  | scalar (style : Style) (text : List Char)
  | streamEnd
  deriving DecidableEq, Repr

/-- A token that a key may start with. -/
structure PossibleKey where
  /-- Whether it must turn out to be one: it stands where the keys of the block table stand. -/
  isRequired : Bool
  /-- The number of the token. -/
  number : Nat
  /-- Where the token starts. -/
  start : Cursor

/-- The longest that a key may be. -/
def PossibleKey.maxLength : Nat := 1024

/-- Whether a cursor is too far from the start of the key. -/
def PossibleKey.isStale (key : PossibleKey) (cursor : Cursor) : Bool :=
  key.start.line < cursor.line || key.start.index + maxLength < cursor.index

/-- What is known between two tokens. -/
structure Lexer where
  cursor : Cursor
  /-- The columns of the blocks that are open, the innermost first. -/
  indents : List Nat := []
  /-- The possible key of the flow collections that are open, the innermost first. -/
  flowKeys : List (Option PossibleKey) := []
  /-- The possible key outside of flow collections. -/
  blockKey : Option PossibleKey := none
  /-- Whether a key may start here. -/
  allowsKey : Bool := true
  /-- The tokens that are held back. -/
  held : List Token := []
  /-- How many tokens were given out. -/
  given : Nat := 0
  isDone : Bool := false

namespace Lexer

def inFlow (lexer : Lexer) : Bool := !lexer.flowKeys.isEmpty

/-- The first column inside the innermost block. -/
def floor (lexer : Lexer) : Nat :=
  match lexer.indents with
  | [] => 0
  | column :: _ => column + 1

/-- The possible key of the innermost flow collection, or outside of all. -/
def possibleKey (lexer : Lexer) : Option PossibleKey :=
  match lexer.flowKeys with
  | [] => lexer.blockKey
  | key :: _ => key

def setPossibleKey (lexer : Lexer) (key : Option PossibleKey) : Lexer :=
  match lexer.flowKeys with
  | [] => { lexer with blockKey := key }
  | _ :: rest => { lexer with flowKeys := key :: rest }

def push (lexer : Lexer) (token : Token) : Lexer := { lexer with held := lexer.held ++ [token] }

/-- Inserts tokens in front of the token of a number. -/
def insertAt (lexer : Lexer) (number : Nat) (tokens : List Token) : Lexer :=
  let place := number - lexer.given
  { lexer with held := lexer.held.take place ++ tokens ++ lexer.held.drop place }

/-- The same text from a later cursor, where a key may start or not. -/
def goTo (lexer : Lexer) (cursor : Cursor) (allowsKey : Bool) : Lexer := { lexer with cursor, allowsKey }

/-! ## Possible keys -/

/-- Gives up the possible key of the innermost collection; a fault if it is required. -/
def dropKey? (lexer : Lexer) : Option Lexer :=
  if lexer.possibleKey.any PossibleKey.isRequired then none else some (lexer.setPossibleKey none)

/-- Notes that the next token may start a key. -/
def noteKey? (lexer : Lexer) : Option Lexer :=
  if !lexer.allowsKey then some lexer
  else do
    let lexer ← lexer.dropKey?
    return lexer.setPossibleKey (some {
      isRequired := !lexer.inFlow && lexer.indents.head? = some lexer.cursor.column
      number := lexer.given + lexer.held.length
      start := lexer.cursor })

/-- Gives up the possible keys that are too far back; a fault if one of them is required. -/
def dropStale? (lexer : Lexer) : Option Lexer :=
  let fresh (key : PossibleKey) : Bool := !key.isStale lexer.cursor
  if lexer.blockKey.any fun key => key.isRequired && !fresh key then none
  else some { lexer with
    blockKey := lexer.blockKey.filter fresh
    flowKeys := lexer.flowKeys.map (·.filter fresh) }

/-! ## Blocks -/

/-- Opens a block at a column if it is deeper than the innermost one; its token goes before the token of a
number, or last. -/
def openBlock (lexer : Lexer) (column : Nat) (number : Option Nat) (token : Token) : Lexer :=
  if lexer.inFlow || column < lexer.floor then lexer
  else
    let lexer := { lexer with indents := column :: lexer.indents }
    match number with
    | some number => lexer.insertAt number [token]
    | none => lexer.push token

/-- Closes the blocks that are deeper than a column, or all. -/
def closeBlocks (lexer : Lexer) (column : Option Nat) : Lexer :=
  if lexer.inFlow then lexer
  else
    let isDeeper (indent : Nat) : Bool := column.all (· < indent)
    let closed := (lexer.indents.takeWhile isDeeper).length
    { lexer with
      indents := lexer.indents.drop closed
      held := lexer.held ++ List.replicate closed .blockEnd }

/-! ## Tokens -/

/-- Passes over blanks, comments and breaks. A tab does not count as blank where a key may start. -/
def skipBlank : Nat → Lexer → Lexer
  | 0, lexer => lexer
  | fuel + 1, lexer =>
    let cursor := lexer.cursor
    let cursor := if cursor.index = 0 && cursor.sees '\ufeff' then cursor.advance 1 else cursor
    let tabs := lexer.inFlow || !lexer.allowsKey
    let cursor := cursor.skipWhile fun c => c = ' ' || (tabs && c = '\t')
    let cursor := if cursor.sees '#' then cursor.skipWhile (!isBreak ·) else cursor
    match cursor.break? with
    | none => { lexer with cursor }
    | some (_, cursor) => skipBlank fuel (lexer.goTo cursor (lexer.allowsKey || !lexer.inFlow))

/-- Takes an indicator of some characters. -/
def takeSign (lexer : Lexer) (count : Nat) (token : Token) (allowsKey : Bool) : Lexer :=
  (lexer.goTo (lexer.cursor.advance count) allowsKey).push token

def takeStreamEnd? (lexer : Lexer) : Option Lexer := do
  let cursor := lexer.cursor
  let cursor := if cursor.column = 0 then cursor else { cursor with line := cursor.line + 1, column := 0 }
  let lexer ← ((lexer.goTo cursor false).closeBlocks none).dropKey?
  return { lexer.push .streamEnd with isDone := true }

def takeDirective? (lexer : Lexer) : Option Lexer := do
  let lexer ← (lexer.closeBlocks none).dropKey?
  let (directive, cursor) ← Property.directive? lexer.cursor
  return (lexer.goTo cursor false).push (.directive directive)

def takeMarker? (lexer : Lexer) (token : Token) : Option Lexer := do
  let lexer ← (lexer.closeBlocks none).dropKey?
  return lexer.takeSign 3 token false

def takeFlowStart? (lexer : Lexer) (token : Token) : Option Lexer := do
  let lexer ← lexer.noteKey?
  return { lexer with flowKeys := none :: lexer.flowKeys }.takeSign 1 token true

def takeFlowEnd? (lexer : Lexer) (token : Token) : Option Lexer := do
  let lexer ← lexer.dropKey?
  return { lexer with flowKeys := lexer.flowKeys.drop 1 }.takeSign 1 token false

def takeFlowEntry? (lexer : Lexer) : Option Lexer := do
  let lexer ← lexer.dropKey?
  return lexer.takeSign 1 .flowEntry true

def takeBlockEntry? (lexer : Lexer) : Option Lexer := do
  if !lexer.inFlow && !lexer.allowsKey then none
  let lexer ← (lexer.openBlock lexer.cursor.column none .blockList).dropKey?
  return lexer.takeSign 1 .blockEntry true

def takeKey? (lexer : Lexer) : Option Lexer := do
  if !lexer.inFlow && !lexer.allowsKey then none
  let lexer ← (lexer.openBlock lexer.cursor.column none .blockTable).dropKey?
  return lexer.takeSign 1 .key (!lexer.inFlow)

/-- Takes a colon. It makes a key of the possible key before it, if there is one. -/
def takeValue? (lexer : Lexer) : Option Lexer :=
  match lexer.possibleKey with
  | some key =>
    let lexer := lexer.insertAt key.number [.key]
    let lexer := lexer.openBlock key.start.column (some key.number) .blockTable
    some ((lexer.setPossibleKey none).takeSign 1 .value false)
  | none =>
    if !lexer.inFlow && !lexer.allowsKey then none
    else some ((lexer.openBlock lexer.cursor.column none .blockTable).takeSign 1 .value (!lexer.inFlow))

/-- Takes a token that may start a key. -/
def takeNode? (lexer : Lexer) (read : Cursor → Option (Token × Cursor)) : Option Lexer := do
  let lexer ← lexer.noteKey?
  let (token, cursor) ← read lexer.cursor
  return (lexer.goTo cursor false).push token

def takeBlockScalar? (lexer : Lexer) (literal : Bool) : Option Lexer := do
  let lexer ← lexer.dropKey?
  let (text, cursor) ← Block.read? literal lexer.floor lexer.cursor
  return (lexer.goTo cursor true).push (.scalar (if literal then .literal else .folded) text)

def takeQuoted? (lexer : Lexer) (double : Bool) : Option Lexer :=
  lexer.takeNode? fun cursor => do
    let (text, cursor) ← Quoted.read? double cursor
    return (.scalar (if double then .doubleQuoted else .singleQuoted) text, cursor)

def takePlain? (lexer : Lexer) : Option Lexer := do
  let lexer ← lexer.noteKey?
  let (text, broken, cursor) ← Plain.read? lexer.inFlow lexer.floor lexer.cursor
  return (lexer.goTo cursor broken).push (.scalar .plain text)

/-- The characters that no plain scalar starts with, unless it is said otherwise. -/
def indicators : List Char :=
  ['-', '?', ':', ',', '[', ']', '\x7b', '\x7d', '#', '&', '*', '!', '|', '>', '\'', '"', '%', '@', '\x60']

/-- Whether a plain scalar starts with a character, which another text follows. -/
def startsPlain (inFlow : Bool) (c : Char) (rest : List Char) : Bool :=
  (c ∉ indicators && !isGap c) || (c = '-' && !rest.head?.any isGap) ||
  (!inFlow && (c = '?' || c = ':') && !endsWord rest)

/-- Takes the next token; `none` if there is a fault. -/
def take? (lexer : Lexer) : Option Lexer := do
  let lexer ← (skipBlank (lexer.cursor.rest.length + 1) lexer).dropStale?
  let cursor := lexer.cursor
  let lexer := lexer.closeBlocks (some cursor.column)
  match cursor.rest with
  | [] => lexer.takeStreamEnd?
  | c :: rest =>
    let separated := endsWord rest
    if cursor.column = 0 && c = '%' then lexer.takeDirective?
    else if cursor.atMarker '-' then lexer.takeMarker? .documentStart
    else if cursor.atMarker '.' then lexer.takeMarker? .documentEnd
    else if c = '[' then lexer.takeFlowStart? .flowListStart
    else if c = '\x7b' then lexer.takeFlowStart? .flowTableStart
    else if c = ']' then lexer.takeFlowEnd? .flowListEnd
    else if c = '\x7d' then lexer.takeFlowEnd? .flowTableEnd
    else if c = ',' then lexer.takeFlowEntry?
    else if c = '-' && separated then lexer.takeBlockEntry?
    else if c = '?' && (lexer.inFlow || separated) then lexer.takeKey?
    else if c = ':' && (lexer.inFlow || separated) then lexer.takeValue?
    else if c = '*' then lexer.takeNode? fun cursor => do
      let (name, cursor) ← Property.name? cursor
      return (.alias name, cursor)
    else if c = '&' then lexer.takeNode? fun cursor => do
      let (name, cursor) ← Property.name? cursor
      return (.anchor name, cursor)
    else if c = '!' then lexer.takeNode? fun cursor => do
      let (name, cursor) ← Property.tag? lexer.inFlow cursor
      return (.tag name, cursor)
    else if c = '|' && !lexer.inFlow then lexer.takeBlockScalar? true
    else if c = '>' && !lexer.inFlow then lexer.takeBlockScalar? false
    else if c = '\'' then lexer.takeQuoted? false
    else if c = '"' then lexer.takeQuoted? true
    else if startsPlain lexer.inFlow c rest then lexer.takePlain?
    else none

/-- Gives out the tokens before the first that may start a key. -/
def release (lexer : Lexer) : List Token × Lexer :=
  let numbers := (lexer.blockKey :: lexer.flowKeys).filterMap (·.map PossibleKey.number)
  let ready := match numbers.min? with
    | some number => number - lexer.given
    | none => lexer.held.length
  (lexer.held.take ready, { lexer with held := lexer.held.drop ready, given := lexer.given + ready })

/-- The tokens up to the end of the text or its first fault. -/
def tokens : Nat → Lexer → List Token
  | 0, _ => []
  | fuel + 1, lexer =>
    match lexer.take?.bind dropStale? with
    | none => []
    | some lexer =>
      let (ready, lexer) := lexer.release
      if lexer.isDone then ready else ready ++ tokens fuel lexer

end Lexer

/-- The tokens of a text up to its end or its first fault; the end is a token of its own. A character that
is not allowed is a fault of the whole text. -/
def Token.ofText (text : String) : List Token :=
  let chars := text.toList
  if chars.all isAllowed then Lexer.tokens (chars.length + 2) { cursor := .start chars } else []

end ThreatModel.Yaml
