import ThreatModel.Report
import ThreatModel.Proofs.Text.Blank
import Mathlib.Algebra.GroupWithZero.Nat
import Mathlib.Data.List.Forall2

/-!
# The table of a report

A table has the headings and the rows of its report under each other. Main statement: each column starts at the same
character of every line and is as wide as its longest cell, so that the characters of a line under a heading are the
cell, whole, up to the blanks at its end.
-/

namespace ThreatModel

namespace Report

/-! ## Columns -/

/-- The cells of a table: the headings, and then those of each row. -/
def grid (report : Report) : List (List String) := headings :: report.rows.map cells

/-- The number of characters of the longest cell of a column, its heading included. -/
def columnWidth (report : Report) (column : Nat) : Nat :=
  (report.grid.map fun row => (row.getD column "").length).max?.getD 0

-- A heading has as many bytes as characters, so both measures give the same widths.
example : headings.map (fun heading => Text.byteLength heading.toList) = headings.map String.length := by decide

/-- Where a column starts: behind the columns before it, each with two blanks after it. -/
def columnStart (report : Report) (column : Nat) : Nat :=
  ((List.range column).map fun before => report.columnWidth before + 2).sum

/-- Cells that are filled up with blanks to the widths of their columns, with two blanks between them. -/
def paddedRow (report : Report) (row : List String) : List Char :=
  [' ', ' '].intercalate (row.mapIdx fun column cell => pad (report.columnWidth column) cell)

/-- The characters of a line from `start` on, `width` of them. A line goes on with blanks behind its end. -/
def window (line : List Char) (start width : Nat) : List Char :=
  (List.range width).map fun place => line.getD (start + place) ' '

/-- A line of the table shows a row of cells. -/
structure Shows (report : Report) (row : List String) (line : List Char) : Prop where
  columns : row.length = 6
  padded : line = Text.trimEnd (report.paddedRow row)
  /-- No cell is longer than its column is wide. -/
  whole : ∀ column cell, row[column]? = some cell → cell.length ≤ report.columnWidth column
  /-- Under its heading stands the cell. -/
  readable : ∀ column cell, row[column]? = some cell →
    Text.trimEnd (window line (report.columnStart column) (report.columnWidth column)) = Text.trimEnd cell.toList

variable {report : Report} {row : List String}

theorem length_of_mem_grid (member : row ∈ report.grid) : row.length = 6 := by
  rcases List.mem_cons.mp member with rfl | inside
  · rfl
  · obtain ⟨_, -, rfl⟩ := List.mem_map.mp inside
    rfl

theorem length_le_columnWidth (member : row ∈ report.grid) {column : Nat} {cell : String}
    (found : row[column]? = some cell) : cell.length ≤ report.columnWidth column := by
  have measured : cell.length ∈ report.grid.map fun row => (row.getD column "").length :=
    List.mem_map.mpr ⟨row, member, by rw [List.getD_eq_getElem?_getD, found, Option.getD_some]⟩
  exact List.le_max?_getD_of_mem measured

/-! ## Widths -/

theorem widen_range (width : Nat → Nat) (row : List String) :
    widen ((List.range row.length).map width) row =
      (List.range row.length).map fun column => max (width column) (row.getD column "").length := by
  apply List.ext_getElem
  · simp [widen]
  · intro column _ inside
    have within : column < row.length := by simpa using inside
    simp [widen, within]

theorem foldl_widen {columns : Nat} {rows : List (List String)} (full : ∀ row ∈ rows, row.length = columns)
    (width : Nat → Nat) :
    rows.foldl widen ((List.range columns).map width) = (List.range columns).map fun column =>
      (rows.map fun row => (row.getD column "").length).foldl max (width column) := by
  induction rows generalizing width with
  | nil => rfl
  | cons row rest ih =>
    obtain ⟨rfl, others⟩ := List.forall_mem_cons.mp full
    rw [List.foldl_cons, widen_range, ih others]
    rfl

/-- The widths of the columns are what the table is laid out by. -/
theorem widths_eq (report : Report) :
    widths (report.rows.map cells) = (List.range 6).map report.columnWidth := by
  have start : headings.map String.length = (List.range 6).map fun column => (headings.getD column "").length := rfl
  have full : ∀ row ∈ report.rows.map cells, row.length = 6 :=
    fun row member => length_of_mem_grid (List.mem_cons_of_mem _ member)
  rw [widths, start, foldl_widen full]
  refine List.map_congr_left fun column _ => ?_
  rw [columnWidth, grid, List.map_cons, List.max?_cons', Option.getD_some]

theorem line_eq (member : row ∈ report.grid) :
    line (widths (report.rows.map cells)) row = Text.trimEnd (report.paddedRow row) := by
  have columns := length_of_mem_grid member
  rw [line, paddedRow, widths_eq]
  congr 2
  apply List.ext_getElem
  · simp [columns]
  · intro column _ inside
    simp

/-! ## What stands in a column -/

theorem length_pad {width : Nat} {cell : String} (fits : cell.length ≤ width) : (pad width cell).length = width := by
  rw [pad, List.length_append, List.length_replicate, String.length_toList, Nat.add_sub_cancel' fits]

theorem window_eq (line : List Char) (start width : Nat) :
    window line start width =
      (line.drop start).take width ++ List.replicate (width - (line.length - start)) ' ' := by
  apply List.ext_getElem
  · simp [window]
    omega
  · intro place inside _
    have within : place < width := by simpa [window] using inside
    by_cases written : start + place < line.length
    · rw [List.getElem_append_left (by simp; omega)]
      simp [window, written]
    · rw [List.getElem_append_right (by simp; omega)]
      simp [window, written]

/-- Blanks at the end of a line change nothing in a column, up to the blanks at its own end. -/
theorem trimEnd_window (row : List Char) (start width : Nat) :
    Text.trimEnd (window (Text.trimEnd row) start width) = Text.trimEnd ((row.drop start).take width) := by
  obtain ⟨blanks, split, blank⟩ := Text.exists_trimEnd_append row
  rw [window_eq, Text.trimEnd_append_blanks Text.isBlank_of_mem_replicate]
  conv_rhs => rw [split, List.drop_append, List.take_append]
  refine (Text.trimEnd_append_blanks fun c member => ?_).symm
  exact blank c (List.mem_of_mem_drop (List.mem_of_mem_take member))

/-- Each part stands behind the parts before it and the two blanks after each of those. -/
theorem drop_intercalate {parts : List (List Char)} {column : Nat} {part : List Char}
    (found : parts[column]? = some part) :
    ∃ after, ([' ', ' '].intercalate parts).drop ((parts.take column).map (·.length + 2)).sum = part ++ after := by
  induction parts generalizing column with
  | nil => cases found
  | cons first rest ih =>
    cases rest with
    | nil =>
      cases column with
      | zero =>
        cases found
        exact ⟨[], by simp⟩
      | succ column => cases found
    | cons second rest =>
      rw [List.intercalate_cons_cons]
      cases column with
      | zero =>
        cases found
        exact ⟨_, by rw [List.append_assoc]; rfl⟩
      | succ column =>
        obtain ⟨after, dropped⟩ := ih (by simpa using found)
        refine ⟨after, ?_⟩
        have ahead : (first ++ [' ', ' ']).length = first.length + 2 := by simp
        rw [List.take_succ_cons, List.map_cons, List.sum_cons, ← ahead, ← List.drop_drop, List.drop_left, dropped]

theorem columnStart_eq (member : row ∈ report.grid) {column : Nat} (inside : column ≤ row.length) :
    report.columnStart column =
      (((row.mapIdx fun column cell => pad (report.columnWidth column) cell).take column).map (·.length + 2)).sum := by
  rw [columnStart]
  congr 1
  apply List.ext_getElem
  · simp [inside]
  · intro before early _
    have within : before < row.length := by simp at early; omega
    simp [length_pad (length_le_columnWidth member (List.getElem?_eq_getElem within))]

/-- In a padded row the columns hold the padded cells. -/
theorem take_drop_paddedRow (member : row ∈ report.grid) {column : Nat} {cell : String}
    (found : row[column]? = some cell) :
    ((report.paddedRow row).drop (report.columnStart column)).take (report.columnWidth column) =
      pad (report.columnWidth column) cell := by
  obtain ⟨within, -⟩ := List.getElem?_eq_some_iff.mp found
  have part : (row.mapIdx fun column cell => pad (report.columnWidth column) cell)[column]? =
      some (pad (report.columnWidth column) cell) := by
    rw [List.getElem?_mapIdx, found, Option.map_some]
  obtain ⟨after, dropped⟩ := drop_intercalate part
  rw [columnStart_eq member within.le, paddedRow, dropped]
  exact List.take_left' (length_pad (length_le_columnWidth member found))

theorem shows_line (member : row ∈ report.grid) :
    report.Shows row (line (widths (report.rows.map cells)) row) where
  columns := length_of_mem_grid member
  padded := line_eq member
  whole _ _ found := length_le_columnWidth member found
  readable column cell found := by
    rw [line_eq member, trimEnd_window, take_drop_paddedRow member found, pad,
      Text.trimEnd_append_blanks Text.isBlank_of_mem_replicate]

/-- The table has one line for the headings and one for each row of the report, in this order, and then the summary
behind an empty line. Each line shows its cells in columns that start at the same character of every line. The cells
of a row are its severity, the names of its threat, rule and category, its shape, and the name of its element, which
is left empty if the row has no element. -/
theorem toTable_aligned (report : Report) :
    (∃ lines : List (List Char),
      report.toTable = String.join (lines.map fun line => String.ofList line ++ "\n") ++
        "\n" ++ report.summary ++ "\n" ∧
      List.Forall₂ report.Shows report.grid lines) ∧
    report.grid = ["SEVERITY", "THREAT", "RULE", "ELEMENT", "SHAPE", "NAME"] ::
      report.rows.map fun row => [row.severity.name, row.threatName, row.rule, row.category.name, row.shape,
        row.elementName.getD ""] := by
  refine ⟨⟨report.lines, rfl, ?_⟩, rfl⟩
  have lines_eq : report.lines = report.grid.map (line (widths (report.rows.map cells))) := rfl
  rw [lines_eq, List.forall₂_map_right_iff, List.forall₂_same]
  intro row member
  exact shows_line member

-- The name of the second row is empty, so its line ends with the shape.
example : toTable ⟨3, 2,
    [⟨"sniff", "sniffing", "Sniffing", .high, .entity, "box", some "client", some "Client", ""⟩,
      ⟨"open-port", "exposure", "Exposure", .low, .process, "p1", none, none, ""⟩],
    [(.low, 1), (.high, 1)]⟩ =
  "SEVERITY  THREAT    RULE       ELEMENT  SHAPE  NAME\n" ++
  "high      Sniffing  sniff      entity   box    Client\n" ++
  "low       Exposure  open-port  process  p1\n" ++
  "\n" ++
  "2 finding(s) from 3 rule(s) over 2 element(s): 1 high, 1 low\n" := by decide +kernel

end Report
end ThreatModel
