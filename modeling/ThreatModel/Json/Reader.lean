import ThreatModel.Json.Number
import ThreatModel.Json

/-!
# Reading JSON texts

A text is read up to its first fault of syntax, which leaves a `cut` in the node where it stands. So a
record is read from a faulty text as far as it goes, and a fault of the record that comes first wins.
-/

namespace ThreatModel.Json

/-- The blanks between the parts of a JSON text. -/
def isGap (c : Char) : Bool := c = ' ' || c = '\t' || c = '\n' || c = '\r'

def skipGap (text : List Char) : List Char := text.dropWhile isGap

/-! ## Texts -/

/-- The value of a hexadecimal digit. -/
def hexValue? (c : Char) : Option Nat :=
  if '0' ≤ c && c ≤ '9' then some (c.toNat - '0'.toNat)
  else if 'a' ≤ c && c ≤ 'f' then some (c.toNat - 'a'.toNat + 10)
  else if 'A' ≤ c && c ≤ 'F' then some (c.toNat - 'A'.toNat + 10)
  else none

/-- The value of four hexadecimal digits, and what follows them. -/
def hexUnit? : List Char → Option (Nat × List Char)
  | a :: b :: c :: d :: rest => do
    let a ← hexValue? a
    let b ← hexValue? b
    let c ← hexValue? c
    let d ← hexValue? d
    return (((a * 16 + b) * 16 + c) * 16 + d, rest)
  | _ => none

/-- The character that a simple escape stands for. -/
def escaped? : Char → Option Char
  | '"' => some '"'
  | '\\' => some '\\'
  | '/' => some '/'
  | 'b' => some '\x08'
  | 'f' => some '\x0c'
  | 'n' => some '\n'
  | 'r' => some '\r'
  | 't' => some '\t'
  | _ => none

def isHighSurrogate (unit : Nat) : Bool := 0xD800 ≤ unit && unit ≤ 0xDBFF

def isLowSurrogate (unit : Nat) : Bool := 0xDC00 ≤ unit && unit ≤ 0xDFFF

/-- The units of UTF-16 that a quoted text is written in: a written character is a unit of its own,
whatever its size, marked by `none` beside it. -/
inductive Piece
  | char (c : Char)
  | unit (value : Nat)

/-- Splits off the pieces of a text up to its closing quote; `none` if it is malformed. -/
def pieces? : Nat → List Char → Option (List Piece × List Char)
  | 0, _ => none
  | _, [] => none
  | fuel + 1, c :: rest =>
    if c = '"' then some ([], rest)
    else if c = '\\' then
      match rest with
      | [] => none
      | 'u' :: rest => do
        let (value, rest) ← hexUnit? rest
        let (more, rest) ← pieces? fuel rest
        return (.unit value :: more, rest)
      | e :: rest => do
        let char ← escaped? e
        let (more, rest) ← pieces? fuel rest
        return (.char char :: more, rest)
    else if c.toNat < 0x20 then none
    else do
      let (more, rest) ← pieces? fuel rest
      return (.char c :: more, rest)

/-- The characters of pieces; `none` if a surrogate stands alone. -/
def assemble? : List Piece → Option (List Char)
  | [] => some []
  | .char c :: rest => (assemble? rest).map (c :: ·)
  | .unit high :: rest =>
    if isHighSurrogate high then
      match rest with
      | .unit low :: rest =>
        if isLowSurrogate low then
          (assemble? rest).map (Char.ofNat (0x10000 + (high - 0xD800) * 0x400 + (low - 0xDC00)) :: ·)
        else none
      | _ => none
    else if isLowSurrogate high then none
    else (assemble? rest).map (Char.ofNat high :: ·)

/-- Reads a text after its opening quote. -/
def readText (text : List Char) : Node × Option (List Char) :=
  match pieces? (text.length + 1) text with
  | none => (.cut, none)
  | some (pieces, rest) =>
    match assemble? pieces with
    | some content => (.scalar (.ofText (String.ofList content)), some rest)
    | none => (.unreadable, some rest)

/-! ## Values -/

/-- Reads one of the words `null`, `true` and `false`. -/
def readWord (text : List Char) : Node × Option (List Char) :=
  match text with
  | 'n' :: 'u' :: 'l' :: 'l' :: rest => (.scalar (.ofDatum .null), some rest)
  | 't' :: 'r' :: 'u' :: 'e' :: rest => (.scalar (.ofDatum (.truth true)), some rest)
  | 'f' :: 'a' :: 'l' :: 's' :: 'e' :: rest => (.scalar (.ofDatum (.truth false)), some rest)
  | _ => (.cut, none)

mutual
/-- Reads a value; the rest is `none` where the text breaks off. -/
def readValue : Nat → List Char → Node × Option (List Char)
  | 0, _ => (.cut, none)
  | fuel + 1, chars =>
    match skipGap chars with
    | [] => (.cut, none)
    | c :: rest =>
      if c = '"' then readText rest
      else if c = '[' then
        match skipGap rest with
        | ']' :: rest => (.list [], some rest)
        | rest => let (items, rest) := readItems fuel rest; (.list items, rest)
      else if c = '\x7b' then
        match skipGap rest with
        | '\x7d' :: rest => (.table [], some rest)
        | rest => let (entries, rest) := readEntries fuel rest; (.table entries, rest)
      else if c = '-' || Decimal.isDigit c then Number.read (c :: rest)
      else readWord (c :: rest)

/-- Reads the items of an array, from an item on. -/
def readItems : Nat → List Char → List Node × Option (List Char)
  | 0, _ => ([.cut], none)
  | fuel + 1, chars =>
    match readValue fuel chars with
    | (item, none) => ([item], none)
    | (item, some rest) =>
      match skipGap rest with
      | ',' :: rest => let (more, rest) := readItems fuel rest; (item :: more, rest)
      | ']' :: rest => ([item], some rest)
      | _ => ([item, .cut], none)

/-- Reads the entries of an object, from a name on. -/
def readEntries : Nat → List Char → List (Node × Node) × Option (List Char)
  | 0, _ => ([(.cut, .cut)], none)
  | fuel + 1, chars =>
    match skipGap chars with
    | '"' :: rest =>
      match readText rest with
      | (_, none) => ([(.cut, .cut)], none)
      | (key, some rest) =>
        match skipGap rest with
        | ':' :: rest =>
          match readValue fuel rest with
          | (value, none) => ([(key, value)], none)
          | (value, some rest) =>
            match skipGap rest with
            | ',' :: rest => let (more, rest) := readEntries fuel rest; ((key, value) :: more, rest)
            | '\x7d' :: rest => ([(key, value)], some rest)
            | _ => ([(key, value), (.cut, .cut)], none)
        | _ => ([(key, .cut)], none)
    | _ => ([(.cut, .cut)], none)
end

/-- The node of a text, and whether the text holds one value and nothing else. -/
def scan (text : String) : Node × Bool :=
  let chars := text.toList
  match readValue (2 * chars.length + 2) chars with
  | (node, none) => (node, false)
  | (node, some rest) => (node, (skipGap rest).isEmpty)

/-- Reads a record from a text. -/
def readWith (read : Node → Except Fault α) (text : String) : Except Fault α := do
  let (node, sound) := scan text
  let value ← read node
  if sound then return value else .error .other

/-- The value that a text denotes, with no bound on its depth. -/
def ofText? (text : String) : Option Json := (readWith (ofNode none) text).toOption

end ThreatModel.Json
