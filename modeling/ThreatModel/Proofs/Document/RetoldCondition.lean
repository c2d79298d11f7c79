import ThreatModel.Proofs.Document.Retelling

/-!
# Conditions that are told again

Main statement: a condition that is kept as free data, written out and read again is the same condition exactly if the
keys of its forms and the texts of its leaves are spelt like free data, and no list of it is an empty scalar.
-/

namespace ThreatModel

open Yaml

namespace Node

/-- Whether a key is that of a leaf. -/
def isLeafKey (key : Node) : Bool :=
  match key.text with
  | .ok name => name = Form.design.key || name = Form.variableBinding.key
  | .error _ => false

mutual
/-- Whether a condition is the same when it is told again. -/
def isKeptCondition : Node → Bool
  | table entries => areKeptForms entries
  | _ => false

/-- Whether the forms of a condition are the same. -/
def areKeptForms : List (Node × Node) → Bool
  | [] => true
  | (key, value) :: rest =>
    key.isKeptText && (if isLeafKey key then value.isKeptOption else isKeptChildren value) && areKeptForms rest

/-- Whether the conditions of a list are the same, or absent as before. -/
def isKeptChildren : Node → Bool
  | scalar value => value.isAbsent
  | list nodes => areKeptConditions nodes
  | _ => false

def areKeptConditions : List Node → Bool
  | [] => true
  | node :: rest => isKeptCondition node && areKeptConditions rest
end

end Node

namespace Condition

theorem readAll_eq_mapM (depth : Option Nat) (nodes : List Node) :
    readAll .yaml depth nodes = nodes.mapM (Condition.read .yaml depth) := by
  induction nodes with
  | nil =>
    rw [readAll]
    rfl
  | cons node rest ih =>
    rw [readAll, List.mapM_cons, ih]

theorem readEntries_eq_foldlM (depth : Option Nat) (slots : Slots) (entries : List (Node × Node)) :
    readEntries .yaml depth slots entries =
      entries.foldlM (fun slots (key, value) => do stepWithin .yaml depth slots (← key.text) value) slots := by
  induction entries generalizing slots with
  | nil =>
    rw [readEntries]
    rfl
  | cons entry rest ih =>
    obtain ⟨key, value⟩ := entry
    rw [readEntries, List.foldlM_cons]
    dsimp only
    cases key.text with
    | error fault => rfl
    | ok name => exact congrArg _ (funext ih)

theorem read_table_eq_ok {depth inner : Option Nat} (deep : Json.deeper depth = .ok inner)
    {entries : List (Node × Node)} {condition : Condition} :
    Condition.read .yaml depth (.table entries) = .ok condition ↔
      (entries.foldlM (fun slots (key, value) => do stepWithin .yaml inner slots (← key.text) value) ({} : Slots) >>=
        Slots.finish) = .ok condition := by
  rw [Condition.read, deep, ← readEntries_eq_foldlM]
  rfl

theorem readChildren_list_eq_ok {depth inner : Option Nat} (deep : Json.deeper depth = .ok inner) {nodes : List Node}
    {children : List Condition} :
    readChildren .yaml depth true (.list nodes) = .ok (some children) ↔
      nodes.mapM (Condition.read .yaml inner) = .ok children := by
  rw [readChildren, deep, ← readAll_eq_mapM]
  constructor
  · intro read
    obtain ⟨_, ⟨⟩, below⟩ := Except.bind_eq_ok.mp read
    obtain ⟨found, items, made⟩ := Except.bind_eq_ok.mp below
    cases made
    exact items
  · exact fun items => Except.bind_eq_ok.mpr ⟨inner, rfl, Except.bind_eq_ok.mpr ⟨children, items, rfl⟩⟩

theorem readChildren_written (depth : Option Nat) (datum : Datum) :
    readChildren .yaml depth true (.scalar (Data.written datum)) =
      if datum = .null then .ok none else .error .wrongType := by
  rw [readChildren, childrenOfScalar, Data.isNull_written, Data.vacant_written]
  by_cases null : datum = .null
  · rw [if_pos null, decide_eq_true null]
    rfl
  · rw [if_neg null, decide_eq_false null]
    rfl

theorem isWord_key (form : Form) : Schema.isWord form.key = true := by cases form <;> decide

end Condition

namespace Node

theorem areKeptForms_iff {entries : List (Node × Node)} :
    areKeptForms entries = true ↔ ∀ entry ∈ entries, entry.1.isKeptText = true ∧
      (if isLeafKey entry.1 then entry.2.isKeptOption else entry.2.isKeptChildren) = true := by
  induction entries with
  | nil => simp [areKeptForms]
  | cons entry rest ih =>
    obtain ⟨key, value⟩ := entry
    rw [areKeptForms, Bool.and_eq_true, Bool.and_eq_true, ih, List.forall_mem_cons]

theorem areKeptConditions_iff {nodes : List Node} :
    areKeptConditions nodes = true ↔ ∀ node ∈ nodes, node.isKeptCondition = true := by
  induction nodes with
  | nil => simp [areKeptConditions]
  | cons node rest ih => rw [areKeptConditions, Bool.and_eq_true, ih, List.forall_mem_cons]

theorem isLeafKey_of_text {key : Node} {form : Form} (named : key.text = .ok form.key) :
    isLeafKey key = (form = .design || form = .variableBinding) := by
  rw [isLeafKey, named]
  cases form <;> rfl

/-- Entries under words whose keys and values are free data are free data under names. -/
theorem exists_ofEntries {depth : Option Nat} {entries : List (Node × Node)} {fields : List (String × Node)}
    (named : List.Forall₂ Named entries fields) (sound : ∀ entry ∈ entries, entry.1.Sound)
    (words : ∀ field ∈ fields, Schema.isWord field.1 = true)
    (free : ∀ entry ∈ entries, (∃ key, Data.ofNode depth entry.1 = .ok key) ∧
      ∃ data, Data.ofNode depth entry.2 = .ok data ∧ data.isDistinct = true) :
    ∃ others, Data.ofEntries depth entries = .ok (Data.named others) ∧
      others.map Prod.fst = fields.map Prod.fst ∧ ∀ other ∈ others, other.2.isDistinct = true := by
  induction named with
  | nil => exact ⟨[], by rw [Data.ofEntries]; rfl, rfl, List.forall_mem_nil _⟩
  | cons first _ ih =>
    rename_i entry field _ _ _
    obtain ⟨keySound, sound⟩ := List.forall_mem_cons.mp sound
    obtain ⟨word, words⟩ := List.forall_mem_cons.mp words
    obtain ⟨⟨⟨key, keyFree⟩, data, valueFree, distinct⟩, free⟩ := List.forall_mem_cons.mp free
    obtain ⟨others, restFree, names, all⟩ := ih sound words free
    obtain ⟨datum, rfl, same⟩ := exists_name keySound first.1 keyFree
    obtain rfl := (Schema.isWord_iff.mp word).eq_text ((same _ word).mp rfl)
    refine ⟨(field.1, data) :: others, ?_, ?_, List.forall_mem_cons.mpr ⟨distinct, all⟩⟩
    · obtain ⟨key, value⟩ := entry
      rw [Data.ofEntries, keyFree, valueFree, restFree]
      rfl
    · rw [List.map_cons, List.map_cons, names]

/-- A table is free data if its names are words, each but once, and its keys and values are free data. -/
theorem isFree_table {depth inner : Option Nat} (deep : Json.deeper depth = .ok inner)
    {entries : List (Node × Node)} {fields : List (String × Node)} (named : List.Forall₂ Named entries fields)
    (sound : ∀ entry ∈ entries, entry.1.Sound) (words : ∀ field ∈ fields, Schema.isWord field.1 = true)
    (nodup : (fields.map Prod.fst).Nodup)
    (free : ∀ entry ∈ entries, (∃ key, Data.ofNode inner entry.1 = .ok key) ∧
      ∃ data, Data.ofNode inner entry.2 = .ok data ∧ data.isDistinct = true) : (table entries).isFree depth = true := by
  obtain ⟨others, told, names, distinct⟩ := exists_ofEntries named sound words free
  refine isFree_iff.mpr ⟨_, (ofNode_table_eq_ok deep).mpr ⟨_, told, rfl⟩, ?_⟩
  rw [Data.isDistinct]
  refine (Data.entriesDistinct_named others []).mpr ⟨names ▸ nodup, ?_, distinct⟩
  exact fun _ _ => List.not_mem_nil

/-- The forms of a condition are told again exactly if their keys and their values are kept. -/
theorem retold_forms {depth : Option Nat} {entries : List (Node × Node)} {condition : Condition}
    (direct : Condition.read .yaml depth (table entries) = .ok condition) (sound : ∀ entry ∈ entries, entry.1.Sound)
    (retold : ∀ entry ∈ entries, ∀ form inner content, entry.1.text = .ok form.key →
      Condition.readPart .yaml inner form entry.2 = .ok content →
      (entry.2.Retold (Condition.readPart .yaml inner form) inner ↔
        (if isLeafKey entry.1 then entry.2.isKeptOption else entry.2.isKeptChildren) = true)) :
    (table entries).Retold (Condition.read .yaml depth) depth ↔ areKeptForms entries = true := by
  obtain ⟨inner, deep, -⟩ := Except.bind_eq_ok.mp (by rw [Condition.read] at direct; exact direct)
  rw [Condition.read_table_eq_ok deep] at direct
  obtain ⟨slots, run, finished⟩ := Except.bind_eq_ok.mp direct
  obtain ⟨fields, named, filled⟩ := exists_named run
  have holds : (Condition.record inner).Holds fields slots := Record.fill_eq_ok.mp filled
  have known : ∀ field ∈ fields, ∃ form : Form, field.1 = form.key := holds.known fun _ => rfl
  have kept_iff {form : Form} {entry : Node × Node} (there : entry ∈ entries) (spelt : entry.1.text = .ok form.key)
      (member : (form.key, entry.2) ∈ fields) :
      entry.2.Retold (Condition.readPart .yaml inner form) inner ↔
        (if isLeafKey entry.1 then entry.2.isKeptOption else entry.2.isKeptChildren) = true := by
    obtain ⟨content, -, read⟩ := holds.read form entry.2 member
    exact retold entry there form inner content spelt read
  rw [Record.retold_table deep (fun _ => Condition.read_table_eq_ok deep) Condition.isWord_key
    (fun _ _ passed => by cases passed) sound named holds finished, areKeptForms_iff]
  constructor
  · rintro ⟨free, parts⟩ entry member
    obtain ⟨data, tableFree, distinct⟩ := isFree_iff.mp free
    obtain ⟨told, entriesFree, rfl⟩ := (ofNode_table_eq_ok deep).mp tableFree
    rw [Data.isDistinct] at distinct
    obtain ⟨⟨key, keyFree⟩, -⟩ := free_of_ofEntries entriesFree distinct entry member
    obtain ⟨⟨name, _⟩, there, spelt, rfl⟩ := exists_right_of_forall₂ named member
    obtain ⟨form, rfl⟩ := known _ there
    refine ⟨?_, (kept_iff member spelt there).mp (parts form _ there)⟩
    obtain ⟨datum, rfl, word⟩ := exists_name (sound entry member) spelt keyFree
    refine (retold_text spelt).mp ⟨_, keyFree, by rw [Data.isDistinct], ?_⟩
    rw [Data.toNode, Data.datumNode_eq, text_scalar.mpr (Data.text_written datum), spelt,
      (word _ (Condition.isWord_key form)).mp rfl]
  · intro kept
    have parts (form : Form) (value : Node) (member : (form.key, value) ∈ fields) :
        value.Retold (Condition.readPart .yaml inner form) inner := by
      obtain ⟨key, spelt, there⟩ := exists_entry named member
      exact (kept_iff there spelt member).mpr (kept _ there).2
    refine ⟨isFree_table deep named sound ?_ (holds.nodup known) fun entry member => ?_, parts⟩
    · intro field member
      obtain ⟨form, here⟩ := known field member
      exact here ▸ Condition.isWord_key form
    · obtain ⟨⟨name, _⟩, there, spelt, rfl⟩ := exists_right_of_forall₂ named member
      obtain ⟨form, rfl⟩ := known _ there
      have keyRetold : entry.1.Retold text inner := (retold_text spelt).mpr (kept entry member).1
      obtain ⟨key, keyFree, -⟩ := keyRetold
      obtain ⟨data, found, once, -⟩ := parts form _ there
      exact ⟨⟨key, keyFree⟩, data, found, once⟩

/-- Conditions, and lists of conditions, are told again exactly if their texts are kept. -/
theorem retold_condition_and_children {node : Node} (sound : node.Sound) :
    (∀ depth condition, Condition.read .yaml depth node = .ok condition →
      (node.Retold (Condition.read .yaml depth) depth ↔ node.isKeptCondition = true)) ∧
    ∀ depth found, Condition.readChildren .yaml depth true node = .ok found →
      (node.Retold (Condition.readChildren .yaml depth true) depth ↔ node.isKeptChildren = true) := by
  -- A list needs the first part for its items, and a table the second for the lists under its keys.
  induction sound with
  | scalar sound =>
    constructor
    · intro depth condition direct
      rw [Condition.read] at direct
      split at direct <;> cases direct
    · intro depth found direct
      rw [retold_scalar, direct, isKeptChildren, isAbsent_iff]
      simp only [Condition.readChildren_written]
      rw [Condition.readChildren, Condition.childrenOfScalar] at direct
      obtain ⟨absent, null, below⟩ := Except.bind_eq_ok.mp direct
      cases absent with
      | true =>
        cases below
        simp [sound.null null, null]
      | false =>
        -- Nothing at all reads as an empty list, and what is written out never does.
        have made : found = some [] := by
          simp only [Bool.and_false, Bool.false_eq_true, if_false] at below
          split at below <;> cases below
          rfl
        subst made
        simp only [null, Except.ok.injEq, Bool.false_eq_true, iff_false, not_exists, not_and]
        intro datum _
        split <;> simp
  | list sound ih =>
    rename_i nodes
    constructor
    · exact fun _ _ direct => by cases direct
    · intro depth found direct
      rw [Condition.readChildren] at direct
      obtain ⟨inner, deep, below⟩ := Except.bind_eq_ok.mp direct
      obtain ⟨children, read, made⟩ := Except.bind_eq_ok.mp below
      cases made
      rw [Condition.readAll_eq_mapM] at read
      rw [retold_list deep read ((Condition.readChildren_list_eq_ok deep).mpr read)
        fun _ => Condition.readChildren_list_eq_ok deep, isKeptChildren, areKeptConditions_iff]
      refine forall₂_congr fun node member => ?_
      obtain ⟨condition, found⟩ := exists_of_mapM read node member
      exact (ih node member).1 inner condition found
  | table keys values keysIh valuesIh =>
    constructor
    · intro depth condition direct
      rw [isKeptCondition]
      refine retold_forms direct keys fun entry member form inner content spelt read => ?_
      rw [isLeafKey_of_text spelt]
      cases form with
      | designs => exact (valuesIh entry member).2 inner content read
      | either => exact (valuesIh entry member).2 inner content read
      | design => exact retold_optional (values entry member) read
      | variableBinding => exact retold_optional (values entry member) read
    · exact fun _ _ direct => by cases direct
  | tagged sound ih => simp [not_retold_tagged, isKeptCondition, isKeptChildren]
  | unreadable =>
    constructor
    · exact fun _ _ direct => by cases direct
    · exact fun _ _ direct => by cases direct
  | cut =>
    constructor
    · exact fun _ _ direct => by cases direct
    · exact fun _ _ direct => by cases direct

end Node
end ThreatModel
