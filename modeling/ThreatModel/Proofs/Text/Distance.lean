import Mathlib.Order.MinMax
import ThreatModel.Proofs.Text.Edit

/-!
# The edit distance

The distance of two texts is found row by row: for each character of one text, a row holds the distances of the text up
to there to all parts of the other that start where it starts. Two rows are enough, and they may be kept in two places
that take turns, of which one is written over while the other is read. Main statement: what is found in this way is the
least number of edits that turn one text into the other.
-/

namespace ThreatModel.Text

/-- The least cost at which two texts are aligned. Rows grow at their ends, so both texts stand in reverse. -/
def Cost (left right : List Char) (cost : Nat) : Prop := IsLeast {cost | Aligned left right cost} cost

variable {text before word : List Char} {cells : List Nat} {c d : Char} {above left corner : Nat}

/-! ## The cost of one more character -/

theorem cost_nil_left (word : List Char) : Cost [] word word.length := by
  refine ⟨.inserted word, fun cost aligned => ?_⟩
  have bound := aligned.length_le
  rwa [List.length_nil, Nat.zero_add] at bound

theorem Cost.cons_nil (least : Cost text [] corner) : Cost (c :: text) [] (corner + 1) := by
  refine ⟨least.1.delete c, fun cost aligned => ?_⟩
  cases aligned with
  | delete _ others => exact Nat.succ_le_succ (least.2 others)

/-- Of two texts with one more character each, one of the two was deleted or inserted, or both are aligned. -/
theorem Cost.cons_cons (onlyLeft : Cost text (d :: before) above) (onlyRight : Cost (c :: text) before left)
    (neither : Cost text before corner) :
    Cost (c :: text) (d :: before) (min (min (above + 1) (left + 1)) (corner + if c = d then 0 else 1)) := by
  constructor
  · rcases min_choice (min (above + 1) (left + 1)) (corner + if c = d then 0 else 1) with outer | outer
    · rw [outer]
      rcases min_choice (above + 1) (left + 1) with inner | inner
      · rw [inner]
        exact onlyLeft.1.delete c
      · rw [inner]
        exact onlyRight.1.insert d
    · rw [outer]
      split
      · rename_i same
        exact same ▸ neither.1.keep c
      · exact neither.1.replace c d
  · intro cost aligned
    cases aligned with
    | keep _ others =>
      have bound := neither.2 others
      rw [if_pos rfl]
      omega
    | replace _ _ others =>
      have bound := neither.2 others
      split <;> omega
    | delete _ others =>
      have bound := onlyLeft.2 others
      omega
    | insert _ others =>
      have bound := onlyRight.2 others
      omega

/-! ## Rows -/

/-- The cells of a row are the costs of a text against the parts of a word, from the part that ends in `before` on. -/
def Costs (text before : List Char) : List Char → List Nat → Prop
  | [], [cell] => Cost text before cell
  | d :: rest, cell :: row => Cost text before cell ∧ Costs text (d :: before) rest row
  | _, _ => False

theorem Costs.first {cell : Nat} (costs : Costs text before word (cell :: cells)) : Cost text before cell := by
  cases word with
  | nil =>
    cases cells with
    | nil => exact costs
    | cons => exact costs.elim
  | cons d rest => exact costs.1

theorem Costs.exists_cons (costs : Costs text before word cells) : ∃ cell rest, cells = cell :: rest := by
  cases cells with
  | nil => cases word <;> exact costs.elim
  | cons cell rest => exact ⟨cell, rest, rfl⟩

theorem Costs.length (costs : Costs text before word cells) : cells.length = word.length + 1 := by
  induction word generalizing before cells with
  | nil =>
    obtain ⟨cell, rest, rfl⟩ := costs.exists_cons
    cases rest with
    | nil => rfl
    | cons => exact costs.elim
  | cons d rest ih =>
    obtain ⟨cell, cells, rfl⟩ := costs.exists_cons
    exact congrArg (· + 1) (ih costs.2)

/-- The row of the empty text. -/
theorem costs_range' (before word : List Char) :
    Costs [] before word (List.range' before.length (word.length + 1)) := by
  induction word generalizing before with
  | nil => exact cost_nil_left before
  | cons d rest ih => exact ⟨cost_nil_left before, ih (d :: before)⟩

/-- Each cell is found from the three around it that are known. -/
theorem Costs.distanceCells (first : Cost (c :: text) before left) (costs : Costs text before word (corner :: cells)) :
    Costs (c :: text) before word (left :: Text.distanceCells c left corner word cells) := by
  induction word generalizing before left corner cells with
  | nil =>
    rw [Text.distanceCells]
    · exact first
    · rintro _ _ _ _ ⟨⟩
  | cons d rest ih =>
    obtain ⟨above, cells, rfl⟩ := costs.2.exists_cons
    exact ⟨first, ih (costs.2.first.cons_cons first costs.1) costs.2⟩

theorem Costs.distanceRow (costs : Costs text [] word cells) (c : Char) :
    Costs (c :: text) [] word (Text.distanceRow word cells c) := by
  obtain ⟨corner, above, rfl⟩ := costs.exists_cons
  exact .distanceCells costs.first.cons_nil costs

theorem Costs.foldl (costs : Costs text [] word cells) (more : List Char) :
    Costs (more.reverse ++ text) [] word (more.foldl (Text.distanceRow word) cells) := by
  induction more generalizing text cells with
  | nil => exact costs
  | cons c rest ih =>
    rw [List.reverse_cons, List.append_assoc]
    exact ih (costs.distanceRow c)

/-- The last cell is the cost against the whole word. -/
theorem Costs.last (costs : Costs text before word cells) : Cost text (word.reverse ++ before) (cells.getLastD 0) := by
  induction word generalizing before cells with
  | nil =>
    obtain ⟨cell, rest, rfl⟩ := costs.exists_cons
    cases rest with
    | nil => exact costs
    | cons => exact costs.elim
  | cons d rest ih =>
    obtain ⟨cell, cells, rfl⟩ := costs.exists_cons
    obtain ⟨next, cells, rfl⟩ := costs.2.exists_cons
    rw [List.reverse_cons, List.append_assoc]
    show Cost text (rest.reverse ++ d :: before) ((next :: cells).getLastD 0)
    exact ih costs.2

theorem cost_distance (left right : List Char) : Cost left right (distance left right) := by
  have start := costs_range' [] right
  have last := (start.foldl left).last
  rw [List.append_nil, List.append_nil, List.length_nil, ← List.range_eq_range'] at last
  simp only [Cost, Aligned.reverse_iff] at last
  exact last

theorem isLeast_distance (left right : List Char) : IsLeast (editCounts left right) (distance left right) :=
  isLeast_editCounts_iff.mpr (cost_distance left right)

/-! ## Two rows that take turns -/

/-- A row whose value at a place is written over, if it has the place. -/
def write? (row : Array Nat) (place value : Nat) : Option (Array Nat) :=
  if inside : place < row.size then some (row.set place value) else none

/-- Writes over a row from behind a place on, for each character of a word one place. What it reads is in front of the
place that it writes to, or in the row of the character before. -/
def fill? (c : Char) (prev curr : Array Nat) (place : Nat) : List Char → Option (Array Nat)
  | [] => some curr
  | d :: rest => do
    let above ← prev[place + 1]?
    let left ← curr[place]?
    let corner ← prev[place]?
    let next ← write? curr (place + 1) (min (min (above + 1) (left + 1)) (corner + if c = d then 0 else 1))
    fill? c prev next (place + 1) rest

/-- The row of the character before and the row that is written over, which is as long. -/
structure Rows where
  prev : Array Nat
  curr : Array Nat

/-- Writes over one row for a character at a place of a text. The rows change places. -/
def Rows.turn? (word : List Char) (rows : Rows) (here : Char × Nat) : Option Rows := do
  let started ← write? rows.curr 0 (here.2 + 1)
  let filled ← fill? here.1 rows.prev started 0 word
  return ⟨filled, rows.prev⟩

/-- The edit distance of two texts as two rows give it, or nothing if a place is read or written that is not there. -/
def distanceInTurns? (left right : List Char) : Option Nat := do
  let rows ← left.zipIdx.foldlM (Rows.turn? right)
    ⟨Array.range (right.length + 1), Array.replicate (right.length + 1) 0⟩
  rows.prev[right.length]?

theorem write?_eq {row : Array Nat} {front back : List Nat} {old : Nat} (held : row.toList = front ++ old :: back)
    (value : Nat) : ∃ next, write? row front.length value = some next ∧ next.toList = front ++ value :: back := by
  have inside : front.length < row.size := by
    rw [← Array.length_toList, held, List.length_append, List.length_cons]
    omega
  refine ⟨_, dif_pos inside, ?_⟩
  rw [Array.toList_set, held, List.set_append_right _ _ (Nat.le_refl _), Nat.sub_self, List.set_cons_zero]

theorem read_eq {row : Array Nat} {front back : List Nat} {value : Nat} (held : row.toList = front ++ value :: back) :
    row[front.length]? = some value := by
  rw [← Array.getElem?_toList, held, List.getElem?_append_right (Nat.le_refl _), Nat.sub_self, List.getElem?_cons_zero]

variable {prev curr : Array Nat}

/-- What has been written over is the start of the next row, and what is to be written over is not read. -/
theorem fill?_eq {passed above written stale : List Nat} (heldPrev : prev.toList = passed ++ corner :: above)
    (heldCurr : curr.toList = written ++ left :: stale) (together : passed.length = written.length)
    (reach : above.length = word.length) (room : stale.length = word.length) :
    ∃ next, fill? c prev curr written.length word = some next ∧
      next.toList = written ++ left :: distanceCells c left corner word above := by
  induction word generalizing passed corner above written left stale curr with
  | nil =>
    cases List.length_eq_zero_iff.mp reach
    cases List.length_eq_zero_iff.mp room
    refine ⟨curr, rfl, ?_⟩
    rw [heldCurr, distanceCells]
    rintro _ _ _ _ ⟨⟩
  | cons d rest ih =>
    obtain ⟨upper, above, rfl⟩ := List.exists_cons_of_length_eq_add_one reach
    obtain ⟨old, stale, rfl⟩ := List.exists_cons_of_length_eq_add_one room
    have readCorner := read_eq heldPrev
    have readLeft := read_eq heldCurr
    rw [List.append_cons] at heldPrev heldCurr
    have readAbove := read_eq heldPrev
    obtain ⟨started, wrote, heldStarted⟩ :=
      write?_eq heldCurr (min (min (upper + 1) (left + 1)) (corner + if c = d then 0 else 1))
    simp only [List.length_append, List.length_singleton, together] at readCorner readAbove wrote
    obtain ⟨next, filled, heldNext⟩ := ih heldPrev heldStarted (by simp [together]) (by simpa using reach)
      (by simpa using room)
    rw [List.length_append, List.length_singleton] at filled
    refine ⟨next, ?_, ?_⟩
    · simp only [fill?, readAbove, readLeft, readCorner, Option.bind_eq_bind, Option.bind_some, wrote, filled]
    · rw [heldNext, distanceCells, List.append_assoc, List.singleton_append]

/-- A turn makes the next row of distances of the row before. -/
theorem turn?_eq {row : List Nat} {place : Nat} (heldPrev : prev.toList = place :: row)
    (reach : row.length = word.length) (room : curr.size = word.length + 1) :
    ∃ next, Rows.turn? word ⟨prev, curr⟩ (c, place) = some ⟨next, prev⟩ ∧
      next.toList = distanceRow word (place :: row) c := by
  rw [← Array.length_toList] at room
  obtain ⟨old, stale, heldCurr⟩ := List.exists_cons_of_length_eq_add_one room
  rw [heldCurr, List.length_cons, Nat.add_right_cancel_iff] at room
  have whole : curr.toList = [] ++ old :: stale := heldCurr
  have passed : prev.toList = [] ++ place :: row := heldPrev
  obtain ⟨started, wrote, heldStarted⟩ := write?_eq whole (place + 1)
  obtain ⟨next, filled, heldNext⟩ := fill?_eq passed heldStarted rfl reach room
  refine ⟨next, ?_, heldNext⟩
  rw [List.length_nil] at wrote filled
  simp only [Rows.turn?, Option.bind_eq_bind, Option.bind_some, wrote, filled, Option.pure_def]

/-- As many turns as a text has characters make its row of distances. -/
theorem foldlM_turn? {row : List Nat} {place : Nat} (more : List Char) (costs : Costs text [] word (place :: row))
    (heldPrev : prev.toList = place :: row) (room : curr.size = word.length + 1) :
    ∃ rows, (more.zipIdx place).foldlM (Rows.turn? word) ⟨prev, curr⟩ = some rows ∧
      rows.prev.toList = more.foldl (distanceRow word) (place :: row) := by
  induction more generalizing text prev curr place row with
  | nil => exact ⟨_, rfl, heldPrev⟩
  | cons c rest ih =>
    have size := costs.length
    rw [← heldPrev, Array.length_toList] at size
    have reach : row.length = word.length := by simpa using costs.length
    obtain ⟨next, turned, heldNext⟩ := turn?_eq (c := c) heldPrev reach room
    obtain ⟨rows, run, held⟩ := ih (costs.distanceRow c) heldNext size
    refine ⟨rows, ?_, held⟩
    rw [List.zipIdx_cons, List.foldlM_cons, turned]
    exact run

theorem distanceInTurns?_eq (left right : List Char) : distanceInTurns? left right = some (distance left right) := by
  have start := costs_range' [] right
  rw [List.length_nil, List.range'_succ] at start
  have heldPrev : (Array.range (right.length + 1)).toList = 0 :: List.range' 1 right.length := by
    rw [Array.toList_range, List.range_eq_range', List.range'_succ]
  have room : (Array.replicate (right.length + 1) 0).size = right.length + 1 := Array.size_replicate
  obtain ⟨rows, run, held⟩ := foldlM_turn? left start heldPrev room
  have length := (start.foldl left).length
  rw [← held] at length
  have last : rows.prev[right.length]? = some (rows.prev.toList.getLastD 0) := by
    have place : rows.prev.toList.getLast? = rows.prev[right.length]? := by
      rw [List.getLast?_eq_getElem?, length, Nat.add_sub_cancel, Array.getElem?_toList]
    obtain ⟨cell, rest, shape⟩ := List.exists_cons_of_length_eq_add_one length
    rw [← place, shape, List.getLast?_cons, List.getLastD_cons, List.getLastD_eq_getLast?]
  rw [distanceInTurns?, run]
  show rows.prev[right.length]? = _
  rw [last, held, distance, List.range_eq_range', List.range'_succ]

/-- The edit distance of two texts is the least number of edits that turn one into the other, and two rows that take
turns give it without reading or writing a place that they do not have. -/
theorem distance_isLeast (left right : String) :
    IsLeast (editCounts left.toList right.toList) (distance left.toList right.toList) ∧
      distanceInTurns? left.toList right.toList = some (distance left.toList right.toList) :=
  ⟨isLeast_distance left.toList right.toList, distanceInTurns?_eq left.toList right.toList⟩

/-- Two characters are replaced and one is added at the end. -/
example : distance "kitten".toList "sitting".toList = 3 ∧
    edited? "kitten".toList [.replace 0 's', .replace 4 'i', .insert 6 'g'] = some "sitting".toList := by
  decide

end ThreatModel.Text
