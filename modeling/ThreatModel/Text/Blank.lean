/-!
# White space and the measure of a text

Which characters count as blank, how the ends of a text are trimmed of them, and how long a text is
in the unit in which messages give offsets: bytes of its UTF-8 form.
-/

namespace ThreatModel.Text

/-- The characters with the Unicode property `White_Space`. -/
def isBlank (c : Char) : Bool :=
  (9 ≤ c.val && c.val ≤ 13) || c.val = 0x20 || c.val = 0x85 || c.val = 0xA0 || c.val = 0x1680 ||
  (0x2000 ≤ c.val && c.val ≤ 0x200A) || c.val = 0x2028 || c.val = 0x2029 || c.val = 0x202F ||
  c.val = 0x205F || c.val = 0x3000

/-- A text without the blanks before its first other character. -/
def trimStart (text : List Char) : List Char :=
  text.dropWhile isBlank

/-- A text without the blanks after its last other character. -/
def trimEnd (text : List Char) : List Char :=
  (text.reverse.dropWhile isBlank).reverse

/-- A text without blanks at either end. -/
def trim (text : List Char) : List Char :=
  trimEnd (trimStart text)

/-- Whether a text holds nothing but blanks. -/
def isVacant (text : String) : Bool :=
  text.toList.all isBlank

/-- The number of bytes of a text in UTF-8. -/
def byteLength : List Char → Nat
  | [] => 0
  | c :: rest => c.utf8Size + byteLength rest

theorem byteLength_append (left right : List Char) :
    byteLength (left ++ right) = byteLength left + byteLength right := by
  induction left with
  | nil => simp [byteLength]
  | cons c rest ih => simp [byteLength, ih, Nat.add_assoc]

/-- What is left of a list is no longer than the list. -/
theorem length_dropWhile_le (p : α → Bool) (list : List α) : (list.dropWhile p).length ≤ list.length := by
  induction list with
  | nil => simp
  | cons a rest ih =>
    rw [List.dropWhile_cons]
    split
    · exact Nat.le_succ_of_le ih
    · exact Nat.le_refl _

/-- Every character that the core library takes for white space is blank. -/
theorem isBlank_of_isWhitespace {c : Char} (h : c.isWhitespace = true) : isBlank c = true := by
  simp only [Char.isWhitespace, Bool.or_eq_true, decide_eq_true_eq] at h
  rcases h with ((h | h) | h) | h <;> subst h <;> decide

end ThreatModel.Text
