import ThreatModel.Yaml.Data
import ThreatModel.Yaml.Reader
import ThreatModel.Proofs.Except
import Mathlib.Data.Nat.Digits.Defs

/-!
# Spellings of free data

Free data that are written out have one spelling each, whatever they were written like before. Main statements: what
is written out reads as its spelling, and as nothing exactly if it was null; and in the node of a text a scalar that is
null has null for its datum, and one whose datum is a text has that text.
-/

namespace ThreatModel

/-- The text of a datum that is written out. -/
def Datum.spelling : Datum → String
  | null => "null"
  | truth value => if value then "true" else "false"
  | int value => toString value
  | double value => String.ofList (Shortest.text Shortest.data value)
  | nan => ".nan"
  | text content => content

/-! ## How numbers begin -/

/-- The signs with which a number that is written out may begin. -/
def Decimal.opens (c : Char) : Bool := isDigit c || c = '-' || c = '.'

/-- A text begins like a number that is written out. -/
def Decimal.Opened (text : List Char) : Prop := ∃ first rest, text = first :: rest ∧ opens first = true

theorem Decimal.exists_digits (n : Nat) : ∃ first rest, digits n = first :: rest ∧ isDigit first = true := by
  obtain ⟨first, rest, found⟩ := List.exists_cons_of_ne_nil (Nat.toDigits_ne_nil (b := 10) (n := n))
  refine ⟨first, rest, found, ?_⟩
  have digit := Nat.isDigit_of_mem_toDigits (b := 10) (n := n) (by decide) (by decide) (found ▸ List.mem_cons_self)
  simpa [isDigit, Char.isDigit, Char.le_def] using digit

namespace Shortest

variable {first : Char} (opens : Decimal.opens first = true)
include opens

theorem opened_positional (layout : Layout) (rest : List Char) (point : Int) :
    Decimal.Opened (positional layout (first :: rest) point) := by
  unfold positional
  split
  · exact ⟨'0', _, rfl, rfl⟩
  · rename_i behind
    obtain ⟨more, positive⟩ : ∃ more, point.toNat = more + 1 := ⟨point.toNat - 1, by omega⟩
    rw [positive]
    dsimp only [List.take_succ_cons]
    split <;> exact ⟨first, _, rfl, opens⟩

theorem opened_scientific (rest : List Char) (point : Int) : Decimal.Opened (scientific (first :: rest) point) := by
  cases rest <;> exact ⟨first, _, rfl, opens⟩

omit opens in
theorem opened_text (x : Double) : Decimal.Opened (text data x) := by
  unfold text
  split
  · exact ⟨'-', _, rfl, rfl⟩
  show Decimal.Opened (magnitudeText data x)
  unfold magnitudeText
  split
  · exact ⟨'.', _, rfl, rfl⟩
  split
  · exact ⟨'0', _, rfl, rfl⟩
  obtain ⟨first, rest, found, digit⟩ := Decimal.exists_digits (digits x).digits
  have opens : Decimal.opens first = true := by simp [Decimal.opens, digit]
  simp only [found]
  split
  · exact opened_scientific opens rest _
  · exact opened_positional opens data rest _

end Shortest

namespace Datum

/-- The data that are numbers, or what is not one. -/
def isNumber : Datum → Bool
  | int _ | double _ | nan => true
  | _ => false

theorem opened_spelling {datum : Datum} (number : datum.isNumber = true) : Decimal.Opened datum.spelling.toList := by
  cases datum with
  | int value =>
    cases value with
    | ofNat n =>
      obtain ⟨first, rest, found, digit⟩ := Decimal.exists_digits n
      refine ⟨first, rest, ?_, by simp [Decimal.opens, digit]⟩
      simpa [spelling, toString, Int.repr, Nat.repr, Decimal.digits] using found
    | negSucc n =>
      refine ⟨'-', Nat.toDigits 10 (n + 1), ?_, rfl⟩
      simp [spelling, toString, Int.repr, Nat.repr]
  | double x => simpa only [spelling, String.toList_ofList] using Shortest.opened_text x
  | nan => exact ⟨'.', _, rfl, rfl⟩
  | _ => cases number

/-- A word is no number, so what is spelt like it is not one either. -/
theorem isNumber_eq_false {datum : Datum} {first : Char} {rest : List Char}
    (spelt : datum.spelling.toList = first :: rest) (word : Decimal.opens first = false) : datum.isNumber = false := by
  by_contra number
  obtain ⟨_, _, found, opens⟩ := opened_spelling (eq_true_of_ne_false number)
  cases spelt.symm.trans found
  rw [word] at opens
  cases opens

end Datum

/-! ## Words -/

namespace Yaml.Schema

/-- A text that stands for nothing but itself, whatever its tag, and does not begin like a number. -/
def isWord (text : String) : Bool :=
  !isNullWord text && (truth? text).isNone && (integerDatum? text.toList).isNone && (double? text.toList).isNone &&
    text.toList.head?.any fun first => !Decimal.opens first

structure IsWord (text : String) : Prop where
  null : isNullWord text = false
  truth : truth? text = none
  integer : integerDatum? text.toList = none
  double : double? text.toList = none
  opens : ∃ first rest, text.toList = first :: rest ∧ Decimal.opens first = false

theorem isWord_iff {text : String} : isWord text = true ↔ IsWord text := by
  simp only [isWord, Bool.and_eq_true, Bool.not_eq_true', Option.isNone_iff_eq_none, Option.any_eq_true]
  constructor
  · rintro ⟨⟨⟨⟨null, truth⟩, integer⟩, double⟩, first, head, opens⟩
    obtain ⟨rest, found⟩ := List.head?_eq_some_iff.mp head
    exact ⟨null, truth, integer, double, first, rest, found, opens⟩
  · rintro ⟨null, truth, integer, double, first, rest, found, opens⟩
    exact ⟨⟨⟨⟨null, truth⟩, integer⟩, double⟩, first, by rw [found, List.head?_cons], opens⟩

theorem IsWord.plainDatum {word : String} (isWord : IsWord word) : plainDatum word = .ok (.text word) := by
  have filled : word.isEmpty = false := by
    obtain ⟨_, _, found, -⟩ := isWord.opens
    rw [← Bool.not_eq_true, String.isEmpty_iff]
    rintro rfl
    cases found
  simp only [Schema.plainDatum, isWord.null, isWord.truth, isWord.integer, isWord.double, filled, Bool.or_self,
    Bool.false_eq_true, if_false, Option.getD_none, ite_self]

theorem IsWord.datum {word : String} (isWord : IsWord word) {tag : Option Tag} {style : Style} {datum : Datum}
    (read : Schema.datum tag style word = .ok datum) : datum = .text word := by
  cases tag with
  | none =>
    simp only [Schema.datum, isWord.plainDatum, ite_self] at read
    cases read
    rfl
  | some tag =>
    simp only [Schema.datum, isWord.plainDatum, isWord.null, isWord.truth, isWord.integer, isWord.double,
      Bool.false_eq_true, if_false, ite_self] at read
    split_ifs at read <;> cases read
    rfl

/-- What is spelt like a word is the word. -/
theorem IsWord.eq_text {word : String} (isWord : IsWord word) {datum : Datum} (spelt : datum.spelling = word) :
    datum = .text word := by
  subst spelt
  obtain ⟨_, _, found, opens⟩ := isWord.opens
  have number := Datum.isNumber_eq_false found opens
  cases datum with
  | null => cases isWord.null
  | truth value => cases value <;> cases isWord.truth
  | text content => rfl
  | _ => cases number

end Yaml.Schema

/-! ## What is written out -/

namespace Yaml.Data

/-- The scalar of a datum that is written out. -/
def written (datum : Datum) : Scalar :=
  Schema.readings none (match datum with | .text _ => .singleQuoted | _ => .plain) datum.spelling

theorem datumNode_eq (datum : Datum) : datumNode datum = .scalar (written datum) := by
  cases datum <;> rfl

theorem text_written (datum : Datum) : (written datum).text = some datum.spelling := rfl

theorem spelling_ne_empty (datum : Datum) (number : datum.isNumber = true) : datum.spelling ≠ "" := by
  obtain ⟨_, _, found, -⟩ := Datum.opened_spelling number
  intro vacant
  rw [vacant] at found
  cases found

theorem isNullWord_spelling (datum : Datum) (number : datum.isNumber = true) :
    Schema.isNullWord datum.spelling = false := by
  obtain ⟨first, rest, found, opens⟩ := Datum.opened_spelling number
  rw [← Bool.not_eq_true, Schema.isNullWord, decide_eq_true_eq]
  intro null
  simp only [List.mem_cons, List.not_mem_nil, or_false] at null
  rcases null with null | null | null | null
  all_goals
    rw [null] at found
    cases found
    cases opens

theorem isNull_written (datum : Datum) : (written datum).isNull = .ok (decide (datum = .null)) := by
  cases datum with
  | null => rfl
  | truth value => cases value <;> rfl
  | text content => rfl
  | int value => simp [written, Schema.readings, Schema.isNull, spelling_ne_empty (.int value) rfl,
      isNullWord_spelling (.int value) rfl]
  | double value => simp [written, Schema.readings, Schema.isNull, spelling_ne_empty (.double value) rfl,
      isNullWord_spelling (.double value) rfl]
  | nan => rfl

theorem vacant_written (datum : Datum) : (written datum).vacant = false := by
  cases datum with
  | null => rfl
  | truth value => cases value <;> rfl
  | text content => rfl
  | int value => simp [written, Schema.readings, spelling_ne_empty (.int value) rfl]
  | double value => simp [written, Schema.readings, spelling_ne_empty (.double value) rfl]
  | nan => rfl

end Yaml.Data

/-! ## The scalars of a text -/

/-- What the readings of a scalar have to do with each other. -/
structure Scalar.Sound (scalar : Scalar) : Prop where
  null : scalar.isNull = .ok true → scalar.data = .ok .null
  text : ∀ content, scalar.data = .ok (.text content) → scalar.text = some content
  word : ∀ word datum, scalar.text = some word → Yaml.Schema.isWord word = true → scalar.data = .ok datum →
    datum = .text word

/-- All scalars of a node are sound. -/
inductive Node.Sound : Node → Prop
  | scalar {value : Scalar} (sound : value.Sound) : Sound (.scalar value)
  | list {items : List Node} (sound : ∀ item ∈ items, Sound item) : Sound (.list items)
  | table {entries : List (Node × Node)} (keys : ∀ entry ∈ entries, Sound entry.1)
      (values : ∀ entry ∈ entries, Sound entry.2) : Sound (.table entries)
  | tagged {tag : String} {node : Node} (sound : Sound node) : Sound (.tagged tag node)
  | unreadable : Sound .unreadable
  | cut : Sound .cut

theorem Node.Sound.untagged {node : Node} (sound : node.Sound) : node.untagged.Sound := by
  induction sound with
  | tagged sound ih => exact ih
  | scalar sound => exact .scalar sound
  | list sound => exact .list sound
  | table keys values => exact .table keys values
  | unreadable => exact .unreadable
  | cut => exact .cut

namespace Yaml

theorem Schema.null_of_isNull {tag : Option Tag} {style : Style} {text : String}
    (null : isNull tag style text = .ok true) : datum tag style text = .ok .null := by
  unfold isNull at null
  split at null
  · cases null
  rename_i plain
  rw [not_not] at plain
  cases tag with
  | none =>
    simp only [Except.ok.injEq] at null
    simp [datum, plain, plainDatum, null]
  | some tag =>
    simp only at null
    split_ifs at null with tagged word
    · subst tagged
      have apart : nullTag ≠ truthTag ∧ nullTag ≠ integerTag ∧ nullTag ≠ numberTag := by decide
      simp [datum, word, apart, datum.orFault]
    all_goals cases null

/-! Numbers are no texts. -/

theorem Schema.integerDatum?_ne_text (chars : List Char) (content : String) :
    integerDatum? chars ≠ some (.ok (.text content)) := by
  intro read
  unfold integerDatum? at read
  split at read
  · cases read
  · grind

theorem Schema.finite?_ne_text (chars : List Char) (content : String) : finite? chars ≠ some (.text content) := by
  unfold finite?
  split
  · split <;> simp
  · simp

theorem Schema.double?_ne_text (chars : List Char) (content : String) : double? chars ≠ some (.text content) := by
  have finite (chars : List Char) := finite?_ne_text chars content
  unfold double?
  split
  · simp
  split
  all_goals split_ifs
  all_goals first | exact finite _ | simp

theorem Schema.text_of_plainDatum {text content : String} (read : plainDatum text = .ok (.text content)) :
    content = text := by
  unfold plainDatum at read
  split at read
  · cases read
  split at read
  · cases read
  split at read
  · rename_i found
    rw [read] at found
    exact absurd found (integerDatum?_ne_text _ _)
  split at read
  · cases read
    rfl
  cases found : double? text.toList with
  | none =>
    rw [found] at read
    cases read
    rfl
  | some datum =>
    rw [found] at read
    cases read
    exact absurd found (double?_ne_text _ _)

theorem Schema.orFault_eq_ok {found : Option Datum} {result : Datum} :
    datum.orFault found = .ok result ↔ found = some result := by
  cases found <;> simp [datum.orFault]

/-- A datum that is a text is the text that was read. -/
theorem Schema.text_of_datum {tag : Option Tag} {style : Style} {text content : String}
    (read : datum tag style text = .ok (.text content)) : content = text := by
  cases tag with
  | none =>
    simp only [datum] at read
    split at read
    · exact text_of_plainDatum read
    · cases read
      rfl
  | some tag =>
    simp only [datum] at read
    split at read
    · obtain ⟨_, -, ⟨⟩⟩ := Option.map_eq_some_iff.mp (orFault_eq_ok.mp read)
    split at read
    · cases found : integerDatum? text.toList with
      | none =>
        rw [found] at read
        cases read
      | some datum =>
        rw [found] at read
        exact absurd (found.trans (congrArg some read)) (integerDatum?_ne_text _ _)
    split at read
    · exact absurd (orFault_eq_ok.mp read) (double?_ne_text _ _)
    split at read
    · split at read <;> cases read
    split at read
    · exact text_of_plainDatum read
    · cases read
      rfl

theorem Schema.sound_readings (tag : Option Tag) (style : Style) (text : String) :
    (readings tag style text).Sound where
  null read := null_of_isNull read
  text content read := congrArg some (text_of_datum read).symm
  word word datum spelt isWord read := by
    cases spelt
    exact (isWord_iff.mp isWord).datum read

theorem Schema.sound_tagged (tag : Option Tag) {node : Node} (sound : node.Sound) : (tagged tag node).Sound := by
  unfold tagged
  split
  · exact .tagged sound
  · exact sound

theorem Schema.sound_scalar (tag : Option Tag) (style : Style) (text : String) :
    (Schema.scalar tag style text).Sound := by
  unfold Schema.scalar
  split
  · exact .tagged (.scalar (sound_readings _ _ _))
  · exact .scalar (sound_readings _ _ _)

theorem sound_tooDeep {gap : Node} (soundGap : gap.Sound) {container : Node → Node}
    (sound : ∀ node : Node, node.Sound → (container node).Sound) (aliases : Nat) (events : List (Event Nat)) :
    (Composed.tooDeep gap container aliases events).value.Sound := by
  unfold Composed.tooDeep
  split
  · exact sound _ .unreadable
  · exact sound _ soundGap

variable (targets : List (Nat × List (Event Nat)))

mutual
theorem sound_composeNode (fuel : Nat) {gap : Node} (soundGap : gap.Sound) (depth aliases : Nat)
    (events : List (Event Nat)) :
    (composeNode targets fuel gap depth aliases events).value.Sound := by
  cases fuel with
  | zero =>
    rw [composeNode]
    exact soundGap
  | succ fuel =>
    unfold composeNode
    split
    · split
      · exact sound_composeNode fuel .unreadable _ _ _
      · exact .unreadable
    · exact Schema.sound_scalar _ _ _
    · split
      · refine sound_tooDeep soundGap (fun node sound => Schema.sound_tagged _ (.list ?_)) _ _
        exact List.forall_mem_singleton.mpr sound
      · exact Schema.sound_tagged _ (.list (sound_composeItems fuel soundGap _ _ _))
    · split
      · refine sound_tooDeep soundGap (fun node sound => Schema.sound_tagged _ (.table ?_ ?_)) _ _
        · exact List.forall_mem_singleton.mpr sound
        · exact List.forall_mem_singleton.mpr sound
      · have sound := sound_composeEntries fuel soundGap
        exact Schema.sound_tagged _ (.table (fun entry member => (sound _ _ _ entry member).1)
          fun entry member => (sound _ _ _ entry member).2)
    · exact soundGap

theorem sound_composeItems (fuel : Nat) {gap : Node} (soundGap : gap.Sound) (depth aliases : Nat)
    (events : List (Event Nat)) :
    ∀ item ∈ (composeItems targets fuel gap depth aliases events).value, item.Sound := by
  cases fuel with
  | zero =>
    rw [composeItems]
    exact List.forall_mem_singleton.mpr soundGap
  | succ fuel =>
    unfold composeItems
    split
    · exact List.forall_mem_nil _
    have sound := sound_composeNode fuel soundGap depth aliases events
    dsimp only
    split
    · exact List.forall_mem_singleton.mpr sound
    · exact List.forall_mem_cons.mpr ⟨sound, sound_composeItems fuel soundGap _ _ _⟩

theorem sound_composeEntries (fuel : Nat) {gap : Node} (soundGap : gap.Sound) (depth aliases : Nat)
    (events : List (Event Nat)) :
    ∀ entry ∈ (composeEntries targets fuel gap depth aliases events).value, entry.1.Sound ∧ entry.2.Sound := by
  cases fuel with
  | zero =>
    rw [composeEntries]
    exact List.forall_mem_singleton.mpr ⟨soundGap, soundGap⟩
  | succ fuel =>
    unfold composeEntries
    split
    · exact List.forall_mem_nil _
    have key := sound_composeNode fuel soundGap depth aliases events
    dsimp only
    split
    · exact List.forall_mem_singleton.mpr ⟨key, soundGap⟩
    have value := sound_composeNode fuel soundGap depth
    split
    · exact List.forall_mem_singleton.mpr ⟨key, value _ _⟩
    · exact List.forall_mem_cons.mpr ⟨⟨key, value _ _⟩, sound_composeEntries fuel soundGap _ _ _⟩
end

/-- The scalars of a text are sound. -/
theorem sound_scan (text : String) : (scan text).1.Sound := by
  unfold scan
  dsimp only
  split
  · refine .scalar ⟨fun _ => rfl, fun _ read => ?_, fun _ _ spelt => ?_⟩
    · cases read
    · cases spelt
  · exact sound_composeNode _ _ .cut _ _ _

end Yaml

end ThreatModel
