import ThreatModel.Text.Blank
import Mathlib.Data.List.TakeWhile

/-!
# Blanks around a text

What is taken from the ends of a text is blanks and nothing else, and no blank is left at either end.
-/

namespace ThreatModel.Text

variable {text before part after blanks : List Char}

theorem trimEnd_append_blanks (blank : ∀ c ∈ blanks, isBlank c = true) :
    trimEnd (text ++ blanks) = trimEnd text := by
  rw [trimEnd, List.reverse_append, List.dropWhile_append_of_pos (by simpa using blank), trimEnd]

/-- Nothing but blanks is taken from a text. -/
theorem exists_trimEnd_append (text : List Char) :
    ∃ blanks, text = trimEnd text ++ blanks ∧ ∀ c ∈ blanks, isBlank c = true := by
  refine ⟨(text.reverse.takeWhile isBlank).reverse, ?_, ?_⟩
  · rw [trimEnd, ← List.reverse_append, List.takeWhile_append_dropWhile, List.reverse_reverse]
  · intro c member
    exact List.mem_takeWhile_imp (List.mem_reverse.mp member)

theorem isBlank_of_mem_replicate {count : Nat} : ∀ c ∈ List.replicate count ' ', isBlank c = true := by
  intro c member
  rw [List.eq_of_mem_replicate member]
  decide

theorem exists_trim_append (text : List Char) : ∃ before after, text = before ++ (trim text ++ after) ∧
    (∀ c ∈ before, isBlank c = true) ∧ ∀ c ∈ after, isBlank c = true := by
  obtain ⟨after, cut, blank⟩ := exists_trimEnd_append (trimStart text)
  refine ⟨text.takeWhile isBlank, after, ?_, fun c => List.mem_takeWhile_imp, blank⟩
  rw [trim, ← cut, trimStart, List.takeWhile_append_dropWhile]

/-- A text without blanks in it is what is left when the blanks around it are taken away. -/
theorem trim_append (blank : ∀ c ∈ before, isBlank c = true) (solid : ∀ c ∈ part, isBlank c = false)
    (blank' : ∀ c ∈ after, isBlank c = true) : trim (before ++ (part ++ after)) = part := by
  have keeps : ∀ text : List Char, (∀ c ∈ text, isBlank c = false) → text.dropWhile isBlank = text := by
    intro text solid
    cases text with
    | nil => rfl
    | cons c rest => rw [List.dropWhile_cons_of_neg (by simp [solid c List.mem_cons_self])]
  have atEnd : trimEnd part = part := by
    rw [trimEnd, keeps _ (by simpa using solid), List.reverse_reverse]
  cases part with
  | nil =>
    have nothing : trimStart (before ++ ([] ++ after)) = [] :=
      List.dropWhile_eq_nil_iff.mpr fun c member => (List.mem_append.mp member).elim (blank c) (blank' c)
    rw [trim, nothing, trimEnd, List.reverse_nil, List.dropWhile_nil, List.reverse_nil]
  | cons c rest =>
    rw [trim, trimStart, List.dropWhile_append_of_pos blank, List.cons_append,
      List.dropWhile_cons_of_neg (by simp [solid c List.mem_cons_self]), ← List.cons_append,
      trimEnd_append_blanks blank', atEnd]

end ThreatModel.Text
