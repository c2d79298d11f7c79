import ThreatModel.Yaml.Cursor

/-!
# Plain scalars

A plain scalar has no quotes. It ends before a comment, before a colon that ends a key, at the indicators
of a flow collection inside one, and outside of one where a line is not indented enough.
-/

namespace ThreatModel.Yaml.Plain

/-- The indicators that end a plain scalar inside a flow collection. -/
def isFlowIndicator (c : Char) : Bool := c = ',' || c = '[' || c = ']' || c = '\x7b' || c = '\x7d'

/-- Whether a colon inside a flow collection may not be followed by a text. -/
def forbidsColon : List Char → Bool
  | [] => false
  | c :: _ => isFlowIndicator c || c = '?'

/-- The word that a text starts with; `none` if a colon in it is misplaced. -/
def word? (flow : Bool) : List Char → Option (List Char)
  | [] => some []
  | c :: rest =>
    if isGap c || isBreak c then some []
    else if flow && c = ':' && forbidsColon rest then none
    else if (c = ':' && endsWord rest) || (flow && isFlowIndicator c) then some []
    else (word? flow rest).map (c :: ·)

/-- Reads words and gaps. The gap in front of the next word is not yet part of the scalar. The truth
value beside the result says whether the scalar is followed by a line break that was passed over. -/
def content? (flow : Bool) (floor : Nat) : Nat → List Char → Gap → Cursor →
    Option (List Char × Bool × Cursor)
  | 0, _, _, _ => none
  | fuel + 1, taken, gap, cursor =>
    if cursor.atDocumentMarker || cursor.sees '#' then some (taken, gap.isBroken, cursor)
    else do
      let word ← word? flow cursor.rest
      if word.isEmpty then some (taken, gap.isBroken, cursor)
      else
        let taken := taken ++ gap.fold ++ word
        let cursor := cursor.advance word.length
        match cursor.rest with
        | [] => some (taken, false, cursor)
        | c :: _ =>
          if isGap c || isBreak c then
            let (gap, cursor) ← (Gap.blanks []).take? floor cursor.rest.length cursor
            if !flow && cursor.column < floor then some (taken, gap.isBroken, cursor)
            else content? flow floor fuel taken gap cursor
          else some (taken, false, cursor)

/-- Reads a plain scalar, whose further lines are indented up to the column `floor`. -/
def read? (flow : Bool) (floor : Nat) (cursor : Cursor) : Option (List Char × Bool × Cursor) :=
  content? flow floor (cursor.rest.length + 1) [] (.blanks []) cursor

end ThreatModel.Yaml.Plain
