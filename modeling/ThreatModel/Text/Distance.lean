import ThreatModel.Text.Case

/-!
# Similar texts

The edit distance of two texts is the number of characters to insert, delete or replace to make one of the
other. Of some candidates the closest to a text is suggested, unless it is too far away.
-/

namespace ThreatModel.Text

/-- One row of distances from the row above it: distances of a text that ends in `c` to the parts of
another text, from the part after the first one on. The distance to the part before is `left`, and `corner`
is the one above that. -/
def distanceCells (c : Char) (left corner : Nat) : List Char → List Nat → List Nat
  | d :: rest, above :: row =>
    let cell := min (min (above + 1) (left + 1)) (corner + if c = d then 0 else 1)
    cell :: distanceCells c cell above rest row
  | _, _ => []

/-- The row of distances after one more character. -/
def distanceRow (word : List Char) (row : List Nat) (c : Char) : List Nat :=
  match row with
  | [] => []
  | corner :: above => (corner + 1) :: distanceCells c (corner + 1) corner word above

/-- The edit distance of two texts. -/
def distance (left right : List Char) : Nat :=
  (left.foldl (distanceRow right) (List.range (right.length + 1))).getLastD 0

/-- The distance of two texts in small letters. -/
def looseDistance (left right : String) : Nat := distance (lower left).toList (lower right).toList

/-- The first of the closest candidates to a text, beside its distance. -/
def nearest? (text : String) : List String → Option (String × Nat)
  | [] => none
  | candidate :: rest =>
    let here := looseDistance text candidate
    match nearest? text rest with
    | some (other, there) => if there < here then some (other, there) else some (candidate, here)
    | none => some (candidate, here)

/-- The candidate to suggest for a text: the closest one, if its distance is at most half of the number of
bytes of the longer of the two. -/
def suggestion? (text : String) (candidates : List String) : Option String :=
  match nearest? text candidates with
  | some (candidate, away) =>
    if away ≤ max text.utf8ByteSize candidate.utf8ByteSize / 2 then some candidate else none
  | none => none

/-! ## Names -/

/-- Whether a text goes on as words of small letters and digits with single hyphens between them;
`inWord` says whether a word has begun. -/
def isKebabFrom (inWord : Bool) : List Char → Bool
  | [] => inWord
  | c :: rest =>
    if c = '-' then inWord && isKebabFrom false rest
    else (('a' ≤ c && c ≤ 'z') || ('0' ≤ c && c ≤ '9')) && isKebabFrom true rest

/-- Whether a text is made of words of small letters and digits with single hyphens between them. -/
def isKebab (text : String) : Bool := isKebabFrom false text.toList

end ThreatModel.Text
