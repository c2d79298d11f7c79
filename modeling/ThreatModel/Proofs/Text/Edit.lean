import Mathlib.Order.Bounds.Basic
import ThreatModel.Text.Distance

/-!
# Edits of a text

An edit inserts one character, deletes one or replaces one, wherever it stands. Edits may be made one after another in
any order; an alignment goes through two texts once, from the first characters to the last. Main statement: the least
number of edits that turn one text into another is the least cost at which they can be aligned.
-/

namespace ThreatModel.Text

/-- An edit at a place of a text, where places count characters. -/
inductive Edit
  /-- The character stands at the place after the edit. -/
  | insert (place : Nat) (c : Char)
  | delete (place : Nat)
  | replace (place : Nat) (c : Char)
  deriving DecidableEq, Repr

/-- The text after an edit, if it has the place. -/
def Edit.make? (text : List Char) : Edit → Option (List Char)
  | insert place c => if place ≤ text.length then some (text.insertIdx place c) else none
  | delete place => if place < text.length then some (text.eraseIdx place) else none
  | replace place c => if place < text.length then some (text.set place c) else none

/-- The text after edits that are made one after another. -/
def edited? (text : List Char) (script : List Edit) : Option (List Char) := script.foldlM Edit.make? text

/-- The numbers of edits by which one text can be turned into another. -/
def editCounts (left right : List Char) : Set Nat :=
  {count | ∃ script : List Edit, script.length = count ∧ edited? left script = some right}

/-- Two texts side by side: each character is kept, replaced, deleted or inserted, and the cost counts all but the first.
-/
inductive Aligned : List Char → List Char → Nat → Prop
  | nil : Aligned [] [] 0
  | keep {left right : List Char} {cost : Nat} (c : Char) (others : Aligned left right cost) :
      Aligned (c :: left) (c :: right) cost
  | replace {left right : List Char} {cost : Nat} (c d : Char) (others : Aligned left right cost) :
      Aligned (c :: left) (d :: right) (cost + 1)
  | delete {left right : List Char} {cost : Nat} (c : Char) (others : Aligned left right cost) :
      Aligned (c :: left) right (cost + 1)
  | insert {left right : List Char} {cost : Nat} (d : Char) (others : Aligned left right cost) :
      Aligned left (d :: right) (cost + 1)

variable {left middle right text after : List Char} {cost more : Nat}

/-! ## Alignments -/

namespace Aligned

theorem refl (text : List Char) : Aligned text text 0 := by
  induction text with
  | nil => exact .nil
  | cons c rest ih => exact .keep c ih

theorem append {left' right' : List Char} (first : Aligned left right cost) (second : Aligned left' right' more) :
    Aligned (left ++ left') (right ++ right') (cost + more) := by
  induction first with
  | nil => rwa [Nat.zero_add]
  | keep c _ ih => exact .keep c ih
  | replace c d _ ih =>
    rw [Nat.add_right_comm]
    exact .replace c d ih
  | delete c _ ih =>
    rw [Nat.add_right_comm]
    exact .delete c ih
  | insert d _ ih =>
    rw [Nat.add_right_comm]
    exact .insert d ih

/-- An alignment may be read from the last characters to the first. -/
theorem reverse (aligned : Aligned left right cost) : Aligned left.reverse right.reverse cost := by
  induction aligned with
  | nil => exact .nil
  | keep c _ ih =>
    rw [List.reverse_cons, List.reverse_cons]
    exact ih.append (.keep c .nil)
  | replace c d _ ih =>
    rw [List.reverse_cons, List.reverse_cons]
    exact ih.append (.replace c d .nil)
  | delete c _ ih =>
    have last := ih.append (.delete c .nil)
    rwa [List.append_nil, ← List.reverse_cons] at last
  | insert d _ ih =>
    have last := ih.append (.insert d .nil)
    rwa [List.append_nil, ← List.reverse_cons] at last

theorem reverse_iff : Aligned left.reverse right.reverse cost ↔ Aligned left right cost := by
  refine ⟨fun aligned => ?_, reverse⟩
  have again := aligned.reverse
  rwa [List.reverse_reverse, List.reverse_reverse] at again

/-- What is aligned with a text is cut into what is aligned with its first character and with the others. -/
theorem head {c : Char} (aligned : Aligned (c :: left) right cost) :
    ∃ front back first others, right = front ++ back ∧ cost = first + others ∧
      Aligned [c] front first ∧ Aligned left back others := by
  generalize same : c :: left = whole at aligned
  induction aligned with
  | nil => cases same
  | @keep _ back others _ rest =>
    cases same
    exact ⟨[c], back, 0, others, rfl, (Nat.zero_add others).symm, .keep c .nil, rest⟩
  | @replace _ back others _ d rest =>
    cases same
    exact ⟨[d], back, 1, others, rfl, Nat.add_comm others 1, .replace c d .nil, rest⟩
  | @delete _ back others _ rest =>
    cases same
    exact ⟨[], back, 1, others, rfl, Nat.add_comm others 1, .delete c .nil, rest⟩
  | insert d _ ih =>
    obtain ⟨front, back, first, others, rfl, rfl, single, rest⟩ := ih same
    exact ⟨d :: front, back, first + 1, others, rfl, Nat.add_right_comm first others 1, single.insert d, rest⟩

theorem length_le (aligned : Aligned left right cost) : right.length ≤ left.length + cost := by
  induction aligned with
  | nil => exact Nat.le_refl 0
  | keep | replace | delete | insert =>
    simp only [List.length_cons]
    omega

theorem inserted (right : List Char) : Aligned [] right right.length := by
  induction right with
  | nil => exact .nil
  | cons d rest ih => exact ih.insert d

/-- Another character in place of one costs at most one more. -/
theorem replaceSingle {c : Char} (aligned : Aligned [c] right cost) (d : Char) :
    ∃ total ≤ cost + 1, Aligned [d] right total := by
  cases right with
  | nil => exact ⟨1, by omega, .delete d .nil⟩
  | cons first rest =>
    have bound := aligned.length_le
    rw [List.length_cons, List.length_singleton] at bound
    exact ⟨rest.length + 1, by omega, (inserted rest).replace d first⟩

/-- Two alignments may be put one after the other, at no more than the cost of both. -/
theorem trans (first : Aligned left middle cost) (second : Aligned middle right more) :
    ∃ total ≤ cost + more, Aligned left right total := by
  induction first generalizing right more with
  | nil => exact ⟨more, (Nat.zero_add more).ge, second⟩
  | delete c _ ih =>
    obtain ⟨total, bound, aligned⟩ := ih second
    exact ⟨total + 1, by omega, aligned.delete c⟩
  | keep c _ ih =>
    obtain ⟨front, back, here, behind, rfl, rfl, single, others⟩ := second.head
    obtain ⟨total, bound, aligned⟩ := ih others
    exact ⟨here + total, by omega, single.append aligned⟩
  | replace c d _ ih =>
    obtain ⟨front, back, here, behind, rfl, rfl, single, others⟩ := second.head
    obtain ⟨total, bound, aligned⟩ := ih others
    obtain ⟨changed, bound', single'⟩ := single.replaceSingle c
    exact ⟨changed + total, by omega, single'.append aligned⟩
  | insert d _ ih =>
    obtain ⟨front, back, here, behind, rfl, rfl, single, others⟩ := second.head
    obtain ⟨total, bound, aligned⟩ := ih others
    have short := single.length_le
    rw [List.length_singleton] at short
    exact ⟨front.length + total, by omega, (inserted front).append aligned⟩

end Aligned

/-! ## Scripts -/

/-- The same edit one place further on. -/
def Edit.later : Edit → Edit
  | insert place c => insert (place + 1) c
  | delete place => delete (place + 1)
  | replace place c => replace (place + 1) c

theorem Edit.later_make? (edit : Edit) (c : Char) (text : List Char) :
    edit.later.make? (c :: text) = (edit.make? text).map (c :: ·) := by
  cases edit <;> simp [later, make?, apply_ite (Option.map (c :: ·))]

/-- Edits of what follows a character leave the character. -/
theorem edited?_later (script : List Edit) (c : Char) (text : List Char) :
    edited? (c :: text) (script.map Edit.later) = (edited? text script).map (c :: ·) := by
  induction script generalizing text with
  | nil => rfl
  | cons edit rest ih =>
    simp only [edited?, List.map_cons, List.foldlM_cons, Edit.later_make?] at ih ⊢
    cases edit.make? text with
    | none => rfl
    | some after => exact ih after

/-- An alignment says how one text is turned into the other, by an edit for each character that is not kept. -/
theorem Aligned.exists_script (aligned : Aligned left right cost) :
    ∃ script : List Edit, script.length = cost ∧ edited? left script = some right := by
  induction aligned with
  | nil => exact ⟨[], rfl, rfl⟩
  | keep c _ ih =>
    obtain ⟨script, length, turned⟩ := ih
    exact ⟨script.map Edit.later, by rw [List.length_map, length], by rw [edited?_later, turned, Option.map_some]⟩
  | @replace left right cost c d _ ih =>
    obtain ⟨script, length, turned⟩ := ih
    refine ⟨.replace 0 d :: script.map Edit.later, by rw [List.length_cons, List.length_map, length], ?_⟩
    show edited? (d :: left) (script.map Edit.later) = _
    rw [edited?_later, turned, Option.map_some]
  | delete c _ ih =>
    obtain ⟨script, length, turned⟩ := ih
    exact ⟨.delete 0 :: script, by rw [List.length_cons, length], turned⟩
  | @insert left right cost d _ ih =>
    obtain ⟨script, length, turned⟩ := ih
    refine ⟨.insert 0 d :: script.map Edit.later, by rw [List.length_cons, List.length_map, length], ?_⟩
    show edited? (d :: left) (script.map Edit.later) = _
    rw [edited?_later, turned, Option.map_some]

theorem Edit.exists_later (edit : Edit) :
    (∃ c, edit = insert 0 c) ∨ edit = delete 0 ∨ (∃ c, edit = replace 0 c) ∨ ∃ earlier : Edit, edit = earlier.later := by
  cases edit with
  | insert place c =>
    cases place with
    | zero => exact .inl ⟨c, rfl⟩
    | succ place => exact .inr (.inr (.inr ⟨.insert place c, rfl⟩))
  | delete place =>
    cases place with
    | zero => exact .inr (.inl rfl)
    | succ place => exact .inr (.inr (.inr ⟨.delete place, rfl⟩))
  | replace place c =>
    cases place with
    | zero => exact .inr (.inr (.inl ⟨c, rfl⟩))
    | succ place => exact .inr (.inr (.inr ⟨.replace place c, rfl⟩))

/-- A text is aligned at cost one with what an edit makes of it. -/
theorem Edit.aligned_of_make? {edit : Edit} (made : edit.make? text = some after) : Aligned text after 1 := by
  -- The induction is on the text in front of the place; at its end only an insertion is left to make.
  induction text generalizing edit after with
  | nil =>
    obtain ⟨c, rfl⟩ | rfl | ⟨c, rfl⟩ | ⟨earlier, rfl⟩ := edit.exists_later
    · cases made
      exact .insert c .nil
    · cases made
    · cases made
    · cases earlier <;> cases made
  | cons d rest ih =>
    obtain ⟨c, rfl⟩ | rfl | ⟨c, rfl⟩ | ⟨earlier, rfl⟩ := edit.exists_later
    · cases made
      exact .insert c (.refl (d :: rest))
    · cases made
      exact .delete d (.refl rest)
    · cases made
      exact .replace d c (.refl rest)
    · rw [later_make?] at made
      obtain ⟨changed, earlierMade, rfl⟩ := Option.map_eq_some_iff.mp made
      exact .keep d (ih earlierMade)

/-- A text is aligned with what a script makes of it, at a cost of no more than the edits. -/
theorem exists_aligned {script : List Edit} (turned : edited? left script = some right) :
    ∃ cost ≤ script.length, Aligned left right cost := by
  induction script generalizing left with
  | nil =>
    cases turned
    exact ⟨0, Nat.le_refl 0, .refl _⟩
  | cons edit rest ih =>
    obtain ⟨after, made, turned⟩ := Option.bind_eq_some_iff.mp turned
    obtain ⟨cost, bound, others⟩ := ih turned
    obtain ⟨total, both, aligned⟩ := (Edit.aligned_of_make? made).trans others
    exact ⟨total, by rw [List.length_cons]; omega, aligned⟩

/-- The least number of edits is the least cost of an alignment. -/
theorem isLeast_editCounts_iff :
    IsLeast (editCounts left right) cost ↔ IsLeast {cost | Aligned left right cost} cost := by
  constructor
  · rintro ⟨⟨script, rfl, turned⟩, least⟩
    obtain ⟨cost, bound, aligned⟩ := exists_aligned turned
    have same : cost = script.length := Nat.le_antisymm bound (least aligned.exists_script)
    exact ⟨same ▸ aligned, fun other aligned => least aligned.exists_script⟩
  · rintro ⟨aligned, least⟩
    refine ⟨aligned.exists_script, ?_⟩
    rintro _ ⟨script, rfl, turned⟩
    obtain ⟨other, bound, aligned⟩ := exists_aligned turned
    exact (least aligned).trans bound

end ThreatModel.Text
