import ThreatModel.Proofs.Yaml.Spelling
import ThreatModel.Proofs.Document.Parts

/-!
# Values that are told again

A value that is kept as free data is written out and read again. Main statements: the second reading is the first one
exactly if the scalars that are read as texts are spelt like free data, for texts, choices, lists of texts and the
cross-references of threats; and a table that is told again makes the same record exactly if each part reads the same.
-/

namespace ThreatModel

open Yaml

/-! ## What is kept -/

/-- Whether a scalar is spelt as its datum would be written. -/
def Scalar.isSpelt (value : Scalar) : Bool :=
  match value.data with
  | .ok datum => value.text = some datum.spelling
  | .error _ => false

/-- Whether an optional field takes the scalar for an absent value. -/
def Scalar.isAbsent (value : Scalar) : Bool :=
  match value.isNull with
  | .ok absent => absent
  | .error _ => false

namespace Node

/-- Whether a text is the same when it is told again. -/
def isKeptText : Node → Bool
  | scalar value => value.isSpelt
  | _ => false

/-- Whether what may be absent is the same when it is told again. -/
def isKeptOption : Node → Bool
  | scalar value => match value.data with
    | .ok .null => value.isAbsent
    | _ => value.isSpelt
  | _ => false

/-- Whether a list of texts is the same when it is told again. -/
def isKeptTexts : Node → Bool
  | list nodes => nodes.all isKeptText
  | _ => false

/-- Whether a node can be held as free data. -/
def isFree (depth : Option Nat) (node : Node) : Bool :=
  match Data.ofNode depth node with
  | .ok data => data.isDistinct
  | .error _ => false

/-- Whether cross-references are the same when they are told again. -/
def isKeptCompliance : Node → Bool
  | table entries => (table entries).isFree freeDepth && entries.all fun entry =>
      match entry.1.text with
      | .ok name => name ∉ ["cwe", "owasp", "stride"] || entry.2.isKeptTexts
      | .error _ => false
  | _ => false

end Node

/-! ## Telling again -/

/-- A value is free data that read like the value when they are written out. -/
def Node.Retold {α : Type} (read : Node → Except Fault α) (depth : Option Nat) (value : Node) : Prop :=
  ∃ data, Data.ofNode depth value = .ok data ∧ data.isDistinct = true ∧ read data.toNode = read value

namespace Node

variable {α β : Type} {read : Node → Except Fault α} {depth : Option Nat} {value : Node}

theorem isSpelt_iff {value : Scalar} :
    value.isSpelt = true ↔ ∃ datum, value.data = .ok datum ∧ value.text = some datum.spelling := by
  unfold Scalar.isSpelt
  split <;> simp_all

theorem isAbsent_iff {value : Scalar} : value.isAbsent = true ↔ value.isNull = .ok true := by
  unfold Scalar.isAbsent
  split <;> simp_all

theorem retold_scalar {value : Scalar} :
    (scalar value).Retold read depth ↔
      ∃ datum, value.data = .ok datum ∧ read (scalar (Data.written datum)) = read (scalar value) := by
  constructor
  · rintro ⟨_, told, -, same⟩
    rw [Data.ofNode, Except.map_eq_ok] at told
    obtain ⟨datum, found, rfl⟩ := told
    rw [Data.toNode, Data.datumNode_eq] at same
    exact ⟨datum, found, same⟩
  · rintro ⟨datum, found, same⟩
    refine ⟨.scalar datum, ?_, ?_, ?_⟩
    · rw [Data.ofNode, found]
      rfl
    · rw [Data.isDistinct]
    · rw [Data.toNode, Data.datumNode_eq, same]

theorem not_retold_tagged {tag : String} {node : Node} : ¬(tagged tag node).Retold read depth := by
  rintro ⟨data, told, -⟩
  rw [Data.ofNode] at told
  cases told

theorem text_scalar {value : Scalar} {content : String} :
    (scalar value).text = .ok content ↔ value.text = some content := by
  rw [text]
  cases value.text <;> simp

/-- A text is told again exactly if it is spelt like its datum. -/
theorem retold_text {content : String} (direct : value.text = .ok content) :
    value.Retold text depth ↔ value.isKeptText = true := by
  cases value with
  | scalar value =>
    rw [text_scalar] at direct
    rw [retold_scalar, isKeptText, isSpelt_iff, text_scalar.mpr direct]
    refine exists_congr fun datum => and_congr_right fun _ => ?_
    rw [text_scalar, Data.text_written, direct, eq_comm]
  | tagged tag node => simp [not_retold_tagged, isKeptText]
  | list nodes => cases direct
  | table entries => cases direct
  | unreadable => cases direct
  | cut => cases direct

/-- A choice is told again exactly if its name is spelt like its datum. -/
theorem retold_choice {ofName? : String → Option α} {nameOf : α → String}
    (only : ∀ name chosen, ofName? name = some chosen → name = nameOf chosen) {chosen : α}
    (direct : value.choice .yaml ofName? = .ok chosen) :
    value.Retold (·.choice .yaml ofName?) depth ↔ value.isKeptText = true := by
  cases value with
  | scalar value =>
    have choice_scalar {other : Scalar} {name : String} (spelt : other.text = some name) :
        (scalar other).choice .yaml ofName? = .ok chosen ↔ ofName? name = some chosen := by
      rw [choice, spelt]
      show choice.named ofName? name = .ok chosen ↔ _
      rw [choice.named]
      cases ofName? name <;> simp
    cases spelt : value.text with
    | none =>
      rw [choice, spelt] at direct
      cases direct
    | some name =>
      have found := (choice_scalar spelt).mp direct
      rw [retold_scalar, isKeptText, isSpelt_iff, direct]
      refine exists_congr fun datum => and_congr_right fun _ => ?_
      rw [choice_scalar (Data.text_written datum), spelt, Option.some.injEq]
      constructor
      · exact fun again => (only _ _ found).trans (only _ _ again).symm
      · rintro rfl
        exact found
  | tagged tag node => simp [not_retold_tagged, isKeptText]
  | list nodes => cases direct
  | table entries => cases direct
  | unreadable => cases direct
  | cut => cases direct

theorem optional_written (datum : Datum) :
    (scalar (Data.written datum)).optional text = .ok (if datum = .null then none else some datum.spelling) := by
  rw [optional, Data.isNull_written]
  by_cases null : datum = .null
  · rw [if_pos null]
    subst null
    rfl
  · rw [if_neg null, decide_eq_false null]
    rfl

/-- What may be absent is told again exactly if it is absent or spelt like its datum, which is not null. -/
theorem retold_optional (sound : value.Sound) {content : Option String} (direct : value.optional text = .ok content) :
    value.Retold (·.optional text) depth ↔ value.isKeptOption = true := by
  cases value with
  | scalar value =>
    cases sound with
    | scalar sound =>
      rw [retold_scalar, direct]
      simp only [optional_written]
      rw [optional] at direct
      obtain ⟨absent, null, direct⟩ := Except.bind_eq_ok.mp direct
      cases absent with
      | true =>
        cases direct
        simp [isKeptOption, sound.null null, Scalar.isAbsent, null]
      | false =>
        obtain ⟨spelling, spelt, ⟨⟩⟩ := Except.bind_eq_ok.mp direct
        rw [text_scalar] at spelt
        cases found : value.data with
        | error fault => simp [isKeptOption, Scalar.isSpelt, found]
        | ok datum =>
          cases datum
          case null => simp [isKeptOption, Scalar.isAbsent, found, null]
          all_goals simp [isKeptOption, Scalar.isSpelt, found, spelt, eq_comm]
  | tagged tag node => simp [not_retold_tagged, isKeptOption]
  | list nodes => cases direct
  | table entries => cases direct
  | unreadable => cases direct
  | cut => cases direct

/-! ### Lists -/

theorem exists_of_mapM {nodes : List Node} {contents : List α} (direct : nodes.mapM read = .ok contents) :
    ∀ node ∈ nodes, ∃ content, read node = .ok content := by
  induction nodes generalizing contents with
  | nil => exact List.forall_mem_nil _
  | cons node rest ih =>
    rw [List.mapM_cons] at direct
    obtain ⟨content, found, direct⟩ := Except.bind_eq_ok.mp direct
    obtain ⟨more, others, -⟩ := Except.bind_eq_ok.mp direct
    exact List.forall_mem_cons.mpr ⟨⟨content, found⟩, ih others⟩

/-- The items of a list are told again exactly if each of them is. -/
theorem retold_items {nodes : List Node} {contents : List α} (direct : nodes.mapM read = .ok contents) :
    (∃ told, Data.ofNodes depth nodes = .ok told ∧ Data.areDistinct told = true ∧
        (Data.toNodes told).mapM read = .ok contents) ↔
      ∀ node ∈ nodes, node.Retold read depth := by
  induction nodes generalizing contents with
  | nil =>
    cases direct
    exact ⟨fun _ => List.forall_mem_nil _, fun _ => ⟨[], by rw [Data.ofNodes], rfl, rfl⟩⟩
  | cons node rest ih =>
    rw [List.mapM_cons] at direct
    obtain ⟨content, found, direct⟩ := Except.bind_eq_ok.mp direct
    obtain ⟨more, others, made⟩ := Except.bind_eq_ok.mp direct
    cases made
    rw [List.forall_mem_cons, ← ih others]
    constructor
    · rintro ⟨told, free, distinct, again⟩
      rw [Data.ofNodes] at free
      obtain ⟨first, firstTold, free⟩ := Except.bind_eq_ok.mp free
      obtain ⟨restTold, restFree, made⟩ := Except.bind_eq_ok.mp free
      cases made
      rw [Data.areDistinct, Bool.and_eq_true] at distinct
      rw [Data.toNodes, List.mapM_cons] at again
      obtain ⟨_, refound, again⟩ := Except.bind_eq_ok.mp again
      obtain ⟨_, reothers, made⟩ := Except.bind_eq_ok.mp again
      cases made
      exact ⟨⟨first, firstTold, distinct.1, refound.trans found.symm⟩, restTold, restFree, distinct.2, reothers⟩
    · rintro ⟨⟨first, firstTold, firstDistinct, same⟩, restTold, restFree, restDistinct, reothers⟩
      refine ⟨first :: restTold, ?_, ?_, ?_⟩
      · rw [Data.ofNodes, firstTold, restFree]
        rfl
      · rw [Data.areDistinct, firstDistinct, restDistinct]
        rfl
      · rw [Data.toNodes, List.mapM_cons, same, found, reothers]
        rfl

/-- A list is told again exactly if its items are told again inside it. -/
theorem retold_list {nodes : List Node} {inner : Option Nat} {whole : Node → Except Fault β} {contents : List α}
    {result : β} (deep : Json.deeper depth = .ok inner) (direct : nodes.mapM read = .ok contents)
    (made : whole (list nodes) = .ok result)
    (makes : ∀ nodes, whole (list nodes) = .ok result ↔ nodes.mapM read = .ok contents) :
    (list nodes).Retold whole depth ↔ ∀ node ∈ nodes, node.Retold read inner := by
  rw [← retold_items direct]
  constructor
  · rintro ⟨data, free, distinct, same⟩
    rw [Data.ofNode] at free
    obtain ⟨_, deeper, below⟩ := Except.bind_eq_ok.mp free
    rw [deep] at deeper
    cases deeper
    obtain ⟨told, itemsFree, listed⟩ := Except.bind_eq_ok.mp below
    cases listed
    rw [Data.isDistinct] at distinct
    rw [Data.toNode, made, makes] at same
    exact ⟨told, itemsFree, distinct, same⟩
  · rintro ⟨told, free, distinct, again⟩
    refine ⟨.list told, ?_, ?_, ?_⟩
    · rw [Data.ofNode]
      exact Except.bind_eq_ok.mpr ⟨inner, deep, Except.bind_eq_ok.mpr ⟨told, free, rfl⟩⟩
    · rw [Data.isDistinct, distinct]
    · rw [Data.toNode, made, makes]
      exact again

theorem texts_written (datum : Datum) : (scalar (Data.written datum)).texts = .error .wrongType := by
  rw [texts, items, Data.vacant_written]
  rfl

theorem retold_texts {contents : List String} {inner : Option Nat} (deep : Json.deeper depth = .ok inner)
    (direct : value.texts = .ok contents) : value.Retold texts depth ↔ value.isKeptTexts = true := by
  cases value with
  | scalar value =>
    rw [retold_scalar, direct]
    simp [texts_written, isKeptTexts]
  | list nodes =>
    rw [retold_list deep direct direct fun _ => Iff.rfl, isKeptTexts, List.all_eq_true]
    refine forall₂_congr fun node member => ?_
    obtain ⟨content, found⟩ := exists_of_mapM direct node member
    exact retold_text found
  | tagged tag node => simp [not_retold_tagged, isKeptTexts]
  | table entries => cases direct
  | unreadable => cases direct
  | cut => cases direct

end Node

/-! ## Tables -/

namespace Yaml.Data

/-- Entries whose keys are names. -/
def named (others : List (String × Data)) : List (Data × Data) :=
  others.map fun other => (.scalar (.text other.1), other.2)

theorem same_name {left right : String} :
    same (.scalar (.text left)) (.scalar (.text right)) = true ↔ left = right := by
  simp [same, sameDatum]

/-- Entries under names are distinct if the names are. -/
theorem entriesDistinct_named (others : List (String × Data)) (seen : List String) :
    entriesDistinct (seen.map fun name => .scalar (.text name)) (named others) = true ↔
      (others.map Prod.fst).Nodup ∧ (∀ other ∈ others, other.1 ∉ seen) ∧
        ∀ other ∈ others, other.2.isDistinct = true := by
  induction others generalizing seen with
  | nil => simp [named, entriesDistinct]
  | cons other rest ih =>
    have fresh : (!(seen.map fun name => Data.scalar (.text name)).any (same (.scalar (.text other.1)))) = true ↔
        other.1 ∉ seen := by
      rw [Bool.not_eq_true', ← Bool.not_eq_true, List.any_map, List.any_eq_true]
      simp only [Function.comp_apply, same_name, exists_eq_right']
    have more := ih (other.1 :: seen)
    rw [List.map_cons] at more
    rw [named, List.map_cons, entriesDistinct, isDistinct]
    simp only [Bool.and_eq_true, fresh]
    rw [← named, more]
    simp only [List.map_cons, List.nodup_cons, List.mem_cons, not_or, List.mem_map, not_exists, not_and]
    grind

end Yaml.Data

/-- A field that is told again: under the same word, with the data that its value is. -/
def Node.Told (depth : Option Nat) (field other : String × Node) : Prop :=
  (∀ word, Schema.isWord word = true → (field.1 = word ↔ other.1 = word)) ∧
    ∃ data, Data.ofNode depth field.2 = .ok data ∧ other.2 = data.toNode

namespace Node

variable {depth : Option Nat}

/-- The name of a key is told again if it is a word. -/
theorem exists_name {key : Node} {name : String} {data : Data} (sound : key.Sound) (named : key.text = .ok name)
    (told : Data.ofNode depth key = .ok data) :
    ∃ datum, data = .scalar datum ∧ ∀ word, Schema.isWord word = true → (name = word ↔ datum.spelling = word) := by
  cases sound with
  | scalar sound =>
    rw [text_scalar] at named
    rw [Data.ofNode, Except.map_eq_ok] at told
    obtain ⟨datum, found, rfl⟩ := told
    refine ⟨datum, rfl, fun word isWord => ⟨?_, fun spelt => ?_⟩⟩
    · rintro rfl
      rw [sound.word _ _ named isWord found]
      rfl
    · rw [(Schema.isWord_iff.mp isWord).eq_text spelt] at found
      rw [sound.text _ found] at named
      exact (Option.some.inj named).symm
  | tagged sound =>
    rw [Data.ofNode] at told
    cases told
  | list sound => cases named
  | table keys values => cases named
  | unreadable => cases named
  | cut => cases named

theorem exists_told {entries : List (Node × Node)} {fields : List (String × Node)} {told : List (Data × Data)}
    (sound : ∀ entry ∈ entries, entry.1.Sound) (named : List.Forall₂ Named entries fields)
    (free : Data.ofEntries depth entries = .ok told) :
    ∃ others, List.Forall₂ Named (Data.toEntries told) others ∧ List.Forall₂ (Told depth) fields others := by
  induction named generalizing told with
  | nil =>
    rw [Data.ofEntries] at free
    cases free
    exact ⟨[], .nil, .nil⟩
  | cons first _ ih =>
    rename_i entry field rest fields
    rw [Data.ofEntries] at free
    obtain ⟨key, keyTold, free⟩ := Except.bind_eq_ok.mp free
    obtain ⟨value, valueTold, free⟩ := Except.bind_eq_ok.mp free
    obtain ⟨more, restTold, made⟩ := Except.bind_eq_ok.mp free
    cases made
    obtain ⟨sound, others⟩ := List.forall_mem_cons.mp sound
    obtain ⟨datum, rfl, same⟩ := exists_name sound first.1 keyTold
    obtain ⟨others, named, all⟩ := ih others restTold
    refine ⟨(datum.spelling, value.toNode) :: others, ?_, .cons ⟨same, value, ?_, rfl⟩ all⟩
    · rw [Data.toEntries, Data.toNode, Data.datumNode_eq]
      exact .cons ⟨rfl, rfl⟩ named
    · rw [← first.2, valueTold]

end Node

namespace Record

variable {ι σ α : Type} {record : Record ι σ α} {depth : Option Nat}

theorem paired_of_told (words : ∀ part, Schema.isWord (record.name part) = true)
    {fields others : List (String × Node)} (told : List.Forall₂ (Node.Told depth) fields others) :
    List.Forall₂ record.Paired fields others :=
  told.imp fun _ _ same part => same.1 _ (words part)

/-- A table that is told again makes the same record exactly if each part reads the same. -/
theorem finish_told (record : Record ι σ α) {entries : List (Node × Node)} {fields : List (String × Node)}
    {told : List (Data × Data)} {slots : σ} {made : α} (words : ∀ part, Schema.isWord (record.name part) = true)
    (passes : ∀ value (data : Data), record.passes value = true → record.passes data.toNode = true)
    (sound : ∀ entry ∈ entries, entry.1.Sound) (named : List.Forall₂ Node.Named entries fields)
    (free : Data.ofEntries depth entries = .ok told) (holds : record.Holds fields slots)
    (finished : record.finish slots = .ok made) :
    ((Data.toEntries told).foldlM (fun slots (key, value) => do record.step slots (← key.text) value) record.start >>=
        record.finish) = .ok made ↔
      ∀ part value data, (record.name part, value) ∈ fields → Data.ofNode depth value = .ok data →
        record.read part data.toNode = record.read part value := by
  obtain ⟨others, renamed, same⟩ := Node.exists_told sound named free
  rw [Node.foldlM_of_named renamed, Except.bind_eq_ok]
  have paired := paired_of_told words same
  constructor
  · rintro ⟨last, run, again⟩ part value data member found
    -- Both tables name the same parts, so the same record has the same slots.
    have heldAgain := fill_eq_ok.mp run
    obtain rfl := holds.eq_of_finish heldAgain (mem_of_paired paired) finished again
    obtain ⟨⟨name, value'⟩, there, here, data', found', told⟩ := exists_right_of_forall₂ same member
    obtain rfl : name = record.name part := (here _ (words part)).mp rfl
    obtain rfl : data' = data := Except.ok.inj (found'.symm.trans found)
    subst told
    exact holds.read_eq heldAgain member there
  · intro reads
    refine ⟨slots, fill_eq_ok.mpr (holds.alike ?_), finished⟩
    refine forall₂_of_mem same fun field member other told => ?_
    obtain ⟨here, data, found, again⟩ := told
    refine ⟨fun part => here _ (words part), fun part named => ?_, fun unknown => ?_⟩
    · rw [again]
      exact reads part field.2 data (named ▸ member) found
    · rw [again]
      exact passes field.2 data (holds.passed field member unknown)

end Record

namespace Node

variable {depth : Option Nat}

/-- In a table that is told again, the value of each entry is free data. -/
theorem free_of_ofEntries {entries : List (Node × Node)} {told : List (Data × Data)} {seen : List Data}
    (free : Data.ofEntries depth entries = .ok told) (distinct : Data.entriesDistinct seen told = true) :
    ∀ entry ∈ entries, (∃ key, Data.ofNode depth entry.1 = .ok key) ∧
      ∃ data, Data.ofNode depth entry.2 = .ok data ∧ data.isDistinct = true := by
  induction entries generalizing told seen with
  | nil => exact List.forall_mem_nil _
  | cons entry rest ih =>
    rw [Data.ofEntries] at free
    obtain ⟨key, keyTold, free⟩ := Except.bind_eq_ok.mp free
    obtain ⟨value, valueTold, free⟩ := Except.bind_eq_ok.mp free
    obtain ⟨more, restTold, made⟩ := Except.bind_eq_ok.mp free
    cases made
    simp only [Data.entriesDistinct, Bool.and_eq_true] at distinct
    exact List.forall_mem_cons.mpr ⟨⟨⟨key, keyTold⟩, value, valueTold, distinct.1.1.2⟩, ih restTold distinct.2⟩

theorem ofNode_table_eq_ok {inner : Option Nat} (deep : Json.deeper depth = .ok inner) {entries : List (Node × Node)}
    {data : Data} :
    Data.ofNode depth (table entries) = .ok data ↔
      ∃ told, Data.ofEntries inner entries = .ok told ∧ data = .table told := by
  rw [Data.ofNode, deep]
  constructor
  · intro free
    obtain ⟨_, ⟨⟩, below⟩ := Except.bind_eq_ok.mp free
    obtain ⟨told, entriesFree, made⟩ := Except.bind_eq_ok.mp below
    cases made
    exact ⟨told, entriesFree, rfl⟩
  · rintro ⟨told, free, rfl⟩
    exact Except.bind_eq_ok.mpr ⟨inner, rfl, Except.bind_eq_ok.mpr ⟨told, free, rfl⟩⟩

theorem retold_of_told {α : Type} {read : Node → Except Fault α} {value : Node} {data : Data}
    (told : Data.ofNode depth value = .ok data) (distinct : data.isDistinct = true) :
    value.Retold read depth ↔ read data.toNode = read value := by
  constructor
  · rintro ⟨_, again, -, same⟩
    rw [told] at again
    cases again
    exact same
  · exact fun same => ⟨data, told, distinct, same⟩

theorem isFree_iff {node : Node} :
    node.isFree depth = true ↔ ∃ data, Data.ofNode depth node = .ok data ∧ data.isDistinct = true := by
  unfold isFree
  split <;> simp_all

/-- The entry that a field is. -/
theorem exists_entry {entries : List (Node × Node)} {fields : List (String × Node)}
    (named : List.Forall₂ Named entries fields) {name : String} {value : Node} (member : (name, value) ∈ fields) :
    ∃ key, key.text = .ok name ∧ (key, value) ∈ entries := by
  obtain ⟨⟨key, _⟩, there, found, rfl⟩ := exists_left_of_forall₂ named member
  exact ⟨key, found, there⟩

end Node

/-- A table is told again as a record exactly if it is free data and each part is told again inside it. -/
theorem Record.retold_table {ι σ α : Type} {record : Record ι σ α} {whole : Node → Except Fault α}
    {depth inner : Option Nat} {entries : List (Node × Node)} {fields : List (String × Node)} {slots : σ} {made : α}
    (deep : Json.deeper depth = .ok inner)
    (makes : ∀ entries, whole (.table entries) = .ok made ↔
      (entries.foldlM (fun slots (key, value) => do record.step slots (← key.text) value) record.start >>=
        record.finish) = .ok made)
    (words : ∀ part, Schema.isWord (record.name part) = true)
    (passes : ∀ value (data : Data), record.passes value = true → record.passes data.toNode = true)
    (sound : ∀ entry ∈ entries, entry.1.Sound) (named : List.Forall₂ Node.Named entries fields)
    (holds : record.Holds fields slots) (finished : record.finish slots = .ok made) :
    (Node.table entries).Retold whole depth ↔
      (Node.table entries).isFree depth = true ∧
        ∀ part value, (record.name part, value) ∈ fields → value.Retold (record.read part) inner := by
  have direct : whole (.table entries) = .ok made := by
    rw [makes, Node.foldlM_of_named named, Except.bind_eq_ok]
    exact ⟨slots, fill_eq_ok.mpr holds, finished⟩
  have free_part {told : List (Data × Data)} (free : Data.ofEntries inner entries = .ok told)
      (distinct : Data.entriesDistinct [] told = true) {name : String} {value : Node} (member : (name, value) ∈ fields) :
      ∃ data, Data.ofNode inner value = .ok data ∧ data.isDistinct = true := by
    obtain ⟨key, -, there⟩ := Node.exists_entry named member
    exact (Node.free_of_ofEntries free distinct _ there).2
  rw [Node.isFree_iff]
  constructor
  · rintro ⟨data, free, distinct, same⟩
    refine ⟨⟨data, free, distinct⟩, fun part value member => ?_⟩
    obtain ⟨told, entriesFree, rfl⟩ := (Node.ofNode_table_eq_ok deep).mp free
    rw [Data.isDistinct] at distinct
    rw [Data.toNode, direct, makes] at same
    obtain ⟨data, found, once⟩ := free_part entriesFree distinct member
    exact (Node.retold_of_told found once).mpr
      ((finish_told record words passes sound named entriesFree holds finished).mp same part value data member found)
  · rintro ⟨⟨data, free, distinct⟩, retold⟩
    refine ⟨data, free, distinct, ?_⟩
    obtain ⟨told, entriesFree, rfl⟩ := (Node.ofNode_table_eq_ok deep).mp free
    rw [Data.toNode, direct, makes]
    refine (finish_told record words passes sound named entriesFree holds finished).mpr
      fun part value data member found => ?_
    obtain ⟨_, again, -, same⟩ := retold part value member
    cases found.symm.trans again
    exact same

namespace Node

variable {depth : Option Nat}

mutual
/-- What is written out does not break off. -/
theorem isCut_toNode (data : Data) : data.toNode.isCut = false := by
  cases data with
  | scalar datum =>
    rw [Data.toNode, Data.datumNode_eq]
    rfl
  | list items =>
    rw [Data.toNode, isCut]
    exact listCut_toNodes items
  | table entries =>
    rw [Data.toNode, isCut]
    exact tableCut_toEntries entries

theorem listCut_toNodes (items : List Data) : isCut.listCut (Data.toNodes items) = false := by
  cases items with
  | nil =>
    rw [Data.toNodes]
    rfl
  | cons item rest =>
    rw [Data.toNodes, isCut.listCut, isCut_toNode item, listCut_toNodes rest]
    rfl

theorem tableCut_toEntries (entries : List (Data × Data)) : isCut.tableCut (Data.toEntries entries) = false := by
  cases entries with
  | nil =>
    rw [Data.toEntries]
    rfl
  | cons entry rest =>
    obtain ⟨key, value⟩ := entry
    rw [Data.toEntries, isCut.tableCut, isCut_toNode key, isCut_toNode value, tableCut_toEntries rest]
    rfl
end

/-! ### Cross-references -/

theorem record_written {σ α : Type} (format : Format) (names : List String) (step : σ → String → Node → Except Fault σ)
    (start : σ) (finish : σ → Except Fault α) (datum : Datum) :
    (scalar (Data.written datum)).record format names step start finish = .error .wrongType := by
  rw [record, Data.vacant_written]
  rfl

theorem words_compliance (part : Compliance.Part) : Schema.isWord (Compliance.record.name part) = true := by
  cases part <;> decide

/-- Cross-references are told again exactly if they are free data and the texts of their lists are kept. -/
theorem retold_compliance {value : Node} (sound : value.Sound) {compliance : Compliance}
    (direct : Compliance.ofNode .yaml value = .ok compliance) :
    value.Retold (Compliance.ofNode .yaml) freeDepth ↔ value.isKeptCompliance = true := by
  cases sound with
  | scalar sound =>
    rw [retold_scalar, direct]
    simp [Compliance.ofNode, record_written, isKeptCompliance]
  | tagged sound => simp [not_retold_tagged, isKeptCompliance]
  | list sound => cases direct
  | unreadable => cases direct
  | cut => cases direct
  | table keys values =>
    rename_i entries
    obtain ⟨slots, run, finished⟩ := Except.bind_eq_ok.mp direct
    obtain ⟨fields, named, filled⟩ := exists_named run
    have holds : Compliance.record.Holds fields slots := Record.fill_eq_ok.mp filled
    have deep : Json.deeper freeDepth = .ok (some 126) := rfl
    rw [Record.retold_table deep (fun _ => Iff.rfl) words_compliance
      (fun _ data _ => by simp [Compliance.record, isCut_toNode]) keys named holds finished, isKeptCompliance,
      Bool.and_eq_true, List.all_eq_true]
    refine and_congr_right fun _ => ?_
    have texts_told {part : Compliance.Part} {value : Node} (member : (part.name, value) ∈ fields) :
        value.Retold texts (some 126) ↔ value.isKeptTexts = true := by
      obtain ⟨contents, -, read⟩ := holds.read part value member
      exact retold_texts rfl read
    constructor
    · intro retold entry member
      obtain ⟨⟨name, _⟩, there, spelt, rfl⟩ := exists_right_of_forall₂ named member
      rw [spelt]
      by_cases known : ∃ part : Compliance.Part, name = part.name
      · obtain ⟨part, rfl⟩ := known
        have kept := (texts_told there).mp (retold part _ there)
        simp only [kept, Bool.or_true]
      · have unlisted : name ∉ ["cwe", "owasp", "stride"] := by
          intro listed
          simp only [List.mem_cons, List.not_mem_nil, or_false] at listed
          rcases listed with here | here | here
          exacts [known ⟨.cwe, here⟩, known ⟨.owasp, here⟩, known ⟨.stride, here⟩]
        simp only [unlisted, not_false_eq_true, decide_true, Bool.true_or]
    · intro kept part value member
      obtain ⟨key, spelt, there⟩ := exists_entry named member
      have keeps := kept _ there
      rw [spelt] at keeps
      refine (texts_told member).mpr ?_
      cases part <;> simpa [Compliance.record, Compliance.Part.name] using keeps

end Node

end ThreatModel
