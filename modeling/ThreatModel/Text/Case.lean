import ThreatModel.Text.CaseTable

/-!
# Small and capital letters of a text

The full mappings of Unicode, in which a letter may become several and the capital sigma has another
small form at the end of a word. On ASCII they are the core library's.
-/

namespace ThreatModel.Text

/-- The code point that a run maps a code point to. -/
def CaseTable.Run.image? (run : CaseTable.Run) (point : Nat) : Option Nat :=
  if run.first ≤ point && point ≤ run.last && (point - run.first) % run.step = 0 then
    some ((point : Int) + run.distance).toNat
  else none

/-- Looks a character up in the two tables of a mapping. -/
def mapped (runs : List CaseTable.Run) (several : List (Nat × List Nat)) (c : Char) : List Char :=
  match several.lookup c.toNat with
  | some points => points.map Char.ofNat
  | none =>
    match runs.findSome? (·.image? c.toNat) with
    | some point => [Char.ofNat point]
    | none => [c]

/-- The small form of a character that stands alone. -/
def lowerChar (c : Char) : List Char :=
  if c.toNat < 128 then [c.toLower] else mapped CaseTable.lowerRuns CaseTable.lowerSeveral c

/-- The capital form of a character. -/
def upperChar (c : Char) : List Char :=
  if c.toNat < 128 then [c.toUpper] else mapped CaseTable.upperRuns CaseTable.upperSeveral c

def inRanges (ranges : List (Nat × Nat)) (c : Char) : Bool :=
  ranges.any fun (first, last) => first ≤ c.toNat && c.toNat ≤ last

/-- Whether the next character that is not passed over has case. -/
def reachesCased (text : List Char) : Bool :=
  match text.dropWhile (inRanges CaseTable.ignorable) with
  | [] => false
  | c :: _ => inRanges CaseTable.cased c

/-- The small forms of a text; `before` holds the characters in front of it, the last one first. -/
def lowerFrom (before : List Char) : List Char → List Char
  | [] => []
  | c :: rest =>
    let small :=
      if c = 'Σ' then [if reachesCased before && !reachesCased rest then 'ς' else 'σ'] else lowerChar c
    small ++ lowerFrom (c :: before) rest

/-- A text in small letters. -/
def lower (text : String) : String := String.ofList (lowerFrom [] text.toList)

/-- A text in capital letters. -/
def upper (text : String) : String := String.ofList (text.toList.flatMap upperChar)

end ThreatModel.Text
