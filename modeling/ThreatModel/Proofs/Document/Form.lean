import ThreatModel.Rule.Condition
import ThreatModel.Proofs.Document.Fields
import ThreatModel.Proofs.Document.Header

/-!
# The form of a condition

A condition is written as an object with the one key of its form. Main statements: an object reads as a condition
exactly if one of the four keys has a value that stands for the condition, there are no others but with null, and
the conditions of a list read in their turn; a condition that was written is read again; and an object of several
forms is told which ones it has.
-/

namespace ThreatModel

/-- The forms in the order in which they are named. -/
def Form.all : List Form := [.designs, .either, .design, .variableBinding]

theorem Form.mem_all (form : Form) : form ∈ all := by cases form <;> decide

/-- What is held of a form; the option is for null. -/
def Form.Content : Form → Type
  | designs | either => Option (List Condition)
  | design | variableBinding => Option String

def Json.isNull : Json → Bool
  | .null => true
  | _ => false

/-- The forms for which an object has more than null. -/
def Json.forms (fields : List (String × Json)) : List Form :=
  Form.all.filter fun form => fields.any fun field => field.1 = form.key && !field.2.isNull

theorem Fault.message_manyForms (forms : List Form) :
    (manyForms forms).message = "node has more than one form: " ++ ", ".intercalate (forms.map Form.key) := rfl

namespace Condition

/-- What stands for a condition under the key of a form: the text of a leaf, or an array whose items read as the
children of a list. -/
inductive Formed (format : Format) : Form → Json → Condition → Prop
  | designs {items : List Json} {children : List Condition}
      (read : List.Forall₂ (fun item child => Condition.read format none item.toNode = .ok child) items children) :
      Formed format .designs (.array items) (.list .all children)
  | either {items : List Json} {children : List Condition}
      (read : List.Forall₂ (fun item child => Condition.read format none item.toNode = .ok child) items children) :
      Formed format .either (.array items) (.list .any children)
  | design (expression : String) : Formed format .design (.text expression) (.design expression)
  | binding (expression : String) : Formed format .variableBinding (.text expression) (.binding expression)

/-- One form of an object stands for a condition, and the others are null if they are there. -/
def OnlyForm (format : Format) (fields : List (String × Json)) (condition : Condition) : Prop :=
  ∃ form, (∃ value, (form.key, value) ∈ fields ∧ Formed format form value condition) ∧
    ∀ other, other ≠ form → ∀ value, (other.key, value) ∈ fields → value = .null

/-- Each form of an object is null or stands for some condition. -/
def Typed (format : Format) (fields : List (String × Json)) : Prop :=
  ∀ form value, (form.key, value) ∈ fields → value = .null ∨ ∃ condition, Formed format form value condition

/-! ## The value of a form -/

/-- Reads the value of a form, which may be null. -/
def readForm (format : Format) : Form → Node → Except Fault (Option Condition)
  | .designs, value => (readChildren format none true value).map (·.map (list .all))
  | .either, value => (readChildren format none true value).map (·.map (list .any))
  | .design, value => (value.optional Node.text).map (·.map .design)
  | .variableBinding, value => (value.optional Node.text).map (·.map .binding)

variable {format : Format}

theorem readAll_eq_ok {items : List Json} {children : List Condition} :
    readAll format none (Json.itemNodes items) = .ok children ↔
      List.Forall₂ (fun item child => Condition.read format none item.toNode = .ok child) items children := by
  induction items generalizing children with
  | nil => simp [Json.itemNodes, readAll, eq_comm]
  | cons item rest ih =>
    rw [Json.itemNodes, readAll, List.forall₂_cons_left_iff]
    constructor
    · intro run
      obtain ⟨child, read, run⟩ := Except.bind_eq_ok.mp run
      obtain ⟨others, reads, made⟩ := Except.bind_eq_ok.mp run
      cases made
      exact ⟨child, others, read, ih.mp reads, rfl⟩
    · rintro ⟨child, others, read, reads, rfl⟩
      exact Except.bind_eq_ok.mpr ⟨child, read, Except.bind_eq_ok.mpr ⟨others, ih.mpr reads, rfl⟩⟩

theorem readList_eq_ok (make : List Condition → Condition) {value : Json} {found : Option Condition} :
    (readChildren format none true value.toNode).map (·.map make) = .ok found ↔
      value = .null ∧ found = none ∨
        ∃ items children, value = .array items ∧
          List.Forall₂ (fun item child => Condition.read format none item.toNode = .ok child) items children ∧
          found = some (make children) := by
  cases value with
  | array items =>
    rw [Json.toNode, readChildren, Except.map_eq_ok]
    constructor
    · rintro ⟨_, run, rfl⟩
      obtain ⟨depth, ⟨⟩, run⟩ := Except.bind_eq_ok.mp run
      obtain ⟨children, reads, made⟩ := Except.bind_eq_ok.mp run
      cases made
      exact .inr ⟨items, children, rfl, readAll_eq_ok.mp reads, rfl⟩
    · rintro (⟨⟨⟩, -⟩ | ⟨_, children, ⟨⟩, reads, rfl⟩)
      refine ⟨some children, ?_, rfl⟩
      exact Except.bind_eq_ok.mpr ⟨none, rfl, Except.bind_eq_ok.mpr ⟨children, readAll_eq_ok.mpr reads, rfl⟩⟩
  | null => simp [Json.toNode, readChildren, childrenOfScalar, Scalar.ofDatum, bind, Except.bind, pure, Except.pure,
      Except.map, eq_comm]
  | _ => simp [Json.toNode, readChildren, childrenOfScalar, Scalar.ofDatum, Scalar.ofText, bind, Except.bind,
      Except.map]

theorem readLeaf_eq_ok (make : String → Condition) {value : Json} {found : Option Condition} :
    (value.toNode.optional Node.text).map (·.map make) = .ok found ↔
      value = .null ∧ found = none ∨ ∃ expression, value = .text expression ∧ found = some (make expression) := by
  cases value <;>
    simp [Json.toNode, Node.optional, Node.text, Node.mismatch, Scalar.ofDatum, Scalar.ofText, bind,
      Except.bind, pure, Except.pure, Except.map, eq_comm]

/-- A value reads as nothing if it is null, and as the condition that it stands for otherwise. -/
theorem readForm_eq_ok {form : Form} {value : Json} {found : Option Condition} :
    readForm format form value.toNode = .ok found ↔
      value = .null ∧ found = none ∨ ∃ condition, Formed format form value condition ∧ found = some condition := by
  cases form with
  | designs =>
    refine (readList_eq_ok _).trans (or_congr_right ⟨?_, ?_⟩)
    · rintro ⟨items, children, rfl, reads, made⟩
      exact ⟨_, .designs reads, made⟩
    · rintro ⟨_, formed, made⟩
      cases formed with
      | designs reads => exact ⟨_, _, rfl, reads, made⟩
  | either =>
    refine (readList_eq_ok _).trans (or_congr_right ⟨?_, ?_⟩)
    · rintro ⟨items, children, rfl, reads, made⟩
      exact ⟨_, .either reads, made⟩
    · rintro ⟨_, formed, made⟩
      cases formed with
      | either reads => exact ⟨_, _, rfl, reads, made⟩
  | design =>
    refine (readLeaf_eq_ok _).trans (or_congr_right ⟨?_, ?_⟩)
    · rintro ⟨expression, rfl, made⟩
      exact ⟨_, .design expression, made⟩
    · rintro ⟨_, ⟨expression⟩, made⟩
      exact ⟨_, rfl, made⟩
  | variableBinding =>
    refine (readLeaf_eq_ok _).trans (or_congr_right ⟨?_, ?_⟩)
    · rintro ⟨expression, rfl, made⟩
      exact ⟨_, .binding expression, made⟩
    · rintro ⟨_, ⟨expression⟩, made⟩
      exact ⟨_, rfl, made⟩

/-! ## Slots -/

def Slots.slot? (slots : Slots) : Form → Option (Option Condition)
  | .designs => slots.designs.map (·.map (list .all))
  | .either => slots.either.map (·.map (list .any))
  | .design => slots.design.map (·.map .design)
  | .variableBinding => slots.binding.map (·.map .binding)

def step (format : Format) (slots : Slots) (name : String) (value : Node) : Except Fault Slots :=
  slots.take name value (readChildren format none true value)

/-! ### Parts -/

/-- Reads the value of a form inside so many containers. -/
def readPart (format : Format) (depth : Option Nat) : (form : Form) → Node → Except Fault form.Content
  | .designs | .either => readChildren format depth true
  | .design | .variableBinding => (·.optional Node.text)

def Slots.part (slots : Slots) : (form : Form) → Option form.Content
  | .designs => slots.designs
  | .either => slots.either
  | .design => slots.design
  | .variableBinding => slots.binding

def stepWithin (format : Format) (depth : Option Nat) (slots : Slots) (name : String) (value : Node) :
    Except Fault Slots :=
  slots.take name value (readChildren format depth true value)

theorem stepWithin_fills {depth : Option Nat} {slots next : Slots} {name : String} {value : Node}
    (stepped : stepWithin format depth slots name value = .ok next) :
    name ∈ keys ∧
      ∀ form, Node.Fills form.key (readPart format depth form) name value (slots.part form) (next.part form) := by
  simp only [stepWithin, Slots.take] at stepped
  split at stepped
  case h_5 => cases stepped
  all_goals
    obtain ⟨_, taken, made⟩ := Except.bind_eq_ok.mp stepped
    cases made
    refine ⟨by decide, fun form => ?_⟩
    cases form
    all_goals first | exact .of_once taken | exact .of_ne (by decide)

theorem exists_stepWithin {depth : Option Nat} {slots : Slots} {form : Form} {value : Node} {content : form.Content}
    (vacant : slots.part form = none) (read : readPart format depth form value = .ok content) :
    ∃ next, stepWithin format depth slots form.key value = .ok next := by
  cases form
  all_goals
    simp only [stepWithin, Slots.take, Form.key]
    exact ⟨_, Except.bind_eq_ok.mpr ⟨_, Node.once_eq_ok.mpr ⟨vacant, content, read, rfl⟩, rfl⟩⟩

/-- The condition that the value of a form stands for, unless it is null. -/
def madeOf : (form : Form) → form.Content → Option Condition
  | .designs => Option.map (list .all)
  | .either => Option.map (list .any)
  | .design => Option.map .design
  | .variableBinding => Option.map .binding

theorem slot?_eq (slots : Slots) (form : Form) : slots.slot? form = (slots.part form).map (madeOf form) := by
  cases form <;> rfl

theorem readForm_eq (format : Format) (form : Form) :
    readForm format form = fun value => (readPart format none form value).map (madeOf form) := by
  cases form <;> rfl

theorem step_fills {slots next : Slots} {name : String} {value : Node}
    (stepped : step format slots name value = .ok next) :
    name ∈ keys ∧
      ∀ form, Node.Fills form.key (readForm format form) name value (slots.slot? form) (next.slot? form) := by
  obtain ⟨known, fills⟩ := stepWithin_fills stepped
  refine ⟨known, fun form => ?_⟩
  rw [slot?_eq, slot?_eq, readForm_eq]
  exact (fills form).map (madeOf form)

theorem exists_step {slots : Slots} {form : Form} {value : Node} {found : Option Condition}
    (vacant : slots.slot? form = none) (read : readForm format form value = .ok found) :
    ∃ next, step format slots form.key value = .ok next := by
  rw [slot?_eq, Option.map_eq_none_iff] at vacant
  rw [readForm_eq, Except.map_eq_ok] at read
  obtain ⟨content, read, -⟩ := read
  exact exists_stepWithin vacant read

/-! ### The form that was found -/

theorem found_eq (slots : Slots) :
    slots.found = Form.all.filterMap fun form => (slots.slot? form).join.map (form, ·) := by
  simp [Slots.found, Form.all, List.filterMap_eq_flatMap_toList, Slots.slot?, Option.join_map_eq_map_join,
    Function.comp_def]

/-- Of some items one alone has something exactly if the others have nothing. -/
theorem filterMap_eq_singleton {items : List α} (nodup : items.Nodup) {find? : α → Option β} {item : α}
    {found : β} :
    (items.filterMap fun item => (find? item).map (item, ·)) = [(item, found)] ↔
      item ∈ items ∧ find? item = some found ∧ ∀ other ∈ items, other ≠ item → find? other = none := by
  induction items with
  | nil => simp
  | cons first rest ih =>
    obtain ⟨new, nodup⟩ := List.nodup_cons.mp nodup
    cases value : find? first with
    | none =>
      rw [List.filterMap_cons_none (by simp [value]), ih nodup]
      grind
    | some content =>
      rw [List.filterMap_cons_some (by rw [value, Option.map_some]), List.cons_eq_cons, List.filterMap_eq_nil_iff]
      simp only [Option.map_eq_none_iff]
      grind

theorem found_eq_singleton {slots : Slots} {form : Form} {condition : Condition} :
    slots.found = [(form, condition)] ↔
      (slots.slot? form).join = some condition ∧ ∀ other, other ≠ form → (slots.slot? other).join = none := by
  rw [found_eq, filterMap_eq_singleton (by decide)]
  simp [Form.mem_all]

theorem finish_eq_ok {slots : Slots} {condition : Condition} :
    slots.finish = .ok condition ↔ ∃ form, slots.found = [(form, condition)] := by
  unfold Slots.finish
  split <;> simp_all

/-! ## Objects -/

variable {fields : List (String × Json)}

theorem mem_keys {name : String} : name ∈ keys ↔ ∃ form : Form, form.key = name := by
  constructor
  · intro member
    simp only [keys, List.mem_cons, List.not_mem_nil, or_false] at member
    rcases member with rfl | rfl | rfl | rfl
    exacts [⟨.designs, rfl⟩, ⟨.either, rfl⟩, ⟨.design, rfl⟩, ⟨.variableBinding, rfl⟩]
  · rintro ⟨form, rfl⟩
    cases form <;> decide

theorem readEntries_fieldNodes (slots : Slots) (fields : List (String × Json)) :
    readEntries format none slots (Json.fieldNodes fields) = Json.fill (step format) slots fields := by
  induction fields generalizing slots with
  | nil => rfl
  | cons field rest ih =>
    rw [Json.fieldNodes, readEntries, Json.fill, List.foldlM_cons]
    exact congrArg _ (funext ih)

theorem read_object (fields : List (String × Json)) :
    Condition.read format none (Json.object fields).toNode =
      (Json.fill (step format) {} fields >>= Slots.finish) := by
  rw [Json.toNode, Condition.read, ← readEntries_fieldNodes]
  rfl

theorem join_eq_some {form : Form} {slot : Option (Option Condition)} {condition : Condition}
    (held : Json.Held (readForm format form) form.key fields slot) (nodup : (fields.map Prod.fst).Nodup) :
    slot.join = some condition ↔ ∃ value, (form.key, value) ∈ fields ∧ Formed format form value condition := by
  rw [Option.join_eq_some_iff]
  constructor
  · rintro rfl
    obtain ⟨value, member, read⟩ := held
    rcases readForm_eq_ok.mp read with ⟨-, ⟨⟩⟩ | ⟨_, formed, ⟨⟩⟩
    exact ⟨value, member, formed⟩
  · rintro ⟨value, member, formed⟩
    obtain ⟨content, rfl, read⟩ := held.read_of_mem nodup member
    rw [readForm_eq_ok.mpr (.inr ⟨condition, formed, rfl⟩)] at read
    cases read
    rfl

theorem join_eq_none {form : Form} {slot : Option (Option Condition)}
    (held : Json.Held (readForm format form) form.key fields slot) (nodup : (fields.map Prod.fst).Nodup) :
    slot.join = none ↔ ∀ value, (form.key, value) ∈ fields → value = .null := by
  constructor
  · intro nothing value member
    obtain ⟨content, rfl, read⟩ := held.read_of_mem nodup member
    rcases readForm_eq_ok.mp read with ⟨null, -⟩ | ⟨_, -, rfl⟩
    · exact null
    · cases nothing
  · intro null
    by_contra some
    obtain ⟨condition, holds⟩ := Option.ne_none_iff_exists'.mp some
    obtain ⟨value, member, formed⟩ := (join_eq_some held nodup).mp holds
    cases null value member
    cases formed

/-- Slots hold the one condition of an object if only one form of the object is more than null. -/
theorem found_iff_onlyForm {slots : Slots} {condition : Condition}
    (held : ∀ form, Json.Held (readForm format form) form.key fields (slots.slot? form))
    (nodup : (fields.map Prod.fst).Nodup) :
    (∃ form, slots.found = [(form, condition)]) ↔ OnlyForm format fields condition := by
  simp only [found_eq_singleton, join_eq_some (held _) nodup, join_eq_none (held _) nodup, OnlyForm]

theorem held_of_read {slots : Slots} (run : Json.fill (step format) {} fields = .ok slots) :
    (∀ field ∈ fields, field.1 ∈ keys) ∧
      ∀ form, Json.Held (readForm format form) form.key fields (slots.slot? form) := by
  refine ⟨Json.forall_of_fill (fun _ _ _ _ stepped => (step_fills stepped).1) run, fun form => ?_⟩
  refine Json.held_of_fill (Slots.slot? · form) (fun _ _ _ _ stepped => (step_fills stepped).2 form) ?_ run
  cases form <;> rfl

theorem exists_step_of_typed {slots : Slots} {form : Form} {value : Json} (vacant : slots.slot? form = none)
    (typed : value = .null ∨ ∃ condition, Formed format form value condition) :
    ∃ next, step format slots form.key value.toNode = .ok next := by
  rcases typed with null | ⟨condition, formed⟩
  · exact exists_step vacant (readForm_eq_ok.mpr (.inl ⟨null, rfl⟩))
  · exact exists_step vacant (readForm_eq_ok.mpr (.inr ⟨condition, formed, rfl⟩))

/-- An object of known keys, none of whose values is a fault, is read into slots. -/
theorem exists_slots (nodup : (fields.map Prod.fst).Nodup) (known : ∀ field ∈ fields, field.1 ∈ keys)
    (typed : Typed format fields) :
    ∃ slots, Json.fill (step format) {} fields = .ok slots := by
  refine Json.exists_fill fun before field isPrefix next run => ?_
  obtain ⟨name, value⟩ := field
  have member : (name, value) ∈ fields := isPrefix.subset (by simp)
  obtain ⟨form, rfl⟩ := mem_keys.mp (known _ member)
  exact exists_step_of_typed (((held_of_read run).2 form).vacant nodup isPrefix) (typed form value member)

theorem OnlyForm.typed {condition : Condition} (only : OnlyForm format fields condition)
    (nodup : (fields.map Prod.fst).Nodup) : Typed format fields := by
  intro form value member
  obtain ⟨one, ⟨content, there, formed⟩, others⟩ := only
  by_cases same : form = one
  · subst same
    cases List.inj_on_of_nodup_map nodup member there rfl
    exact .inr ⟨condition, formed⟩
  · exact .inl (others form same value member)

/-- An object reads as a condition exactly if all its keys are forms and one of them alone stands for the
condition. -/
theorem read_object_eq_ok {condition : Condition} (nodup : (fields.map Prod.fst).Nodup) :
    Condition.read format none (Json.object fields).toNode = .ok condition ↔
      (∀ field ∈ fields, field.1 ∈ keys) ∧ OnlyForm format fields condition := by
  rw [read_object, Except.bind_eq_ok]
  constructor
  · rintro ⟨slots, run, finished⟩
    obtain ⟨known, held⟩ := held_of_read run
    exact ⟨known, (found_iff_onlyForm held nodup).mp (finish_eq_ok.mp finished)⟩
  · rintro ⟨known, only⟩
    obtain ⟨slots, run⟩ := exists_slots nodup known (only.typed nodup)
    exact ⟨slots, run, finish_eq_ok.mpr ((found_iff_onlyForm (held_of_read run).2 nodup).mpr only)⟩

/-! ## Several forms -/

theorem any_eq_false {form : Form} :
    (fields.any fun field => field.1 = form.key && !field.2.isNull) = false ↔
      ∀ value, (form.key, value) ∈ fields → value = .null := by
  rw [List.any_eq_false]
  constructor
  · intro none value member
    have null := none _ member
    cases value <;> simp_all [Json.isNull]
  · rintro null ⟨name, value⟩ member present
    simp only [Bool.and_eq_true, decide_eq_true_eq] at present
    obtain ⟨rfl, more⟩ := present
    cases null value member
    cases more

theorem found_forms {slots : Slots}
    (held : ∀ form, Json.Held (readForm format form) form.key fields (slots.slot? form))
    (nodup : (fields.map Prod.fst).Nodup) : slots.found.map Prod.fst = Json.forms fields := by
  rw [found_eq, List.map_filterMap, Json.forms, ← List.filterMap_eq_filter]
  refine List.filterMap_congr fun form _ => ?_
  have absent := (join_eq_none (held form) nodup).trans any_eq_false.symm
  revert absent
  cases (slots.slot? form).join with
  | none =>
    intro absent
    simp only [Option.map_none, Option.guard, absent.mp rfl]
    rfl
  | some condition =>
    intro absent
    have present := mt absent.mpr (Option.some_ne_none condition)
    rw [Bool.not_eq_false] at present
    simp only [Option.map_some, Option.guard, present]
    rfl

/-- An object of several forms, none of whose values is a fault, does not read, and the fault names the forms. -/
theorem read_object_several (nodup : (fields.map Prod.fst).Nodup) (known : ∀ field ∈ fields, field.1 ∈ keys)
    (typed : Typed format fields)
    (several : 2 ≤ (Json.forms fields).length) :
    Condition.read format none (Json.object fields).toNode = .error (.manyForms (Json.forms fields)) := by
  obtain ⟨slots, run⟩ := exists_slots nodup known typed
  have forms := found_forms (held_of_read run).2 nodup
  rw [read_object, run]
  simp only [bind, Except.bind, Slots.finish]
  rw [← forms] at several ⊢
  split <;> simp_all

/-! ## Writing and reading -/

theorem Form.key_injective {form other : Form} (same : form.key = other.key) : form = other := by
  cases form <;> cases other <;> first | rfl | simp [Form.key] at same

theorem read_single {form : Form} {value : Json} {condition : Condition}
    (formed : Formed format form value condition) :
    Condition.read format none (Json.object [(form.key, value)]).toNode = .ok condition := by
  refine (read_object_eq_ok (by simp)).mpr ⟨?_, form, ⟨value, by simp, formed⟩, ?_⟩
  · exact List.forall_mem_singleton.mpr (mem_keys.mpr ⟨form, rfl⟩)
  · intro other differs content member
    simp only [List.mem_singleton, Prod.mk.injEq] at member
    exact absurd (Form.key_injective member.1) differs

mutual
/-- A condition that was written is read again. -/
theorem read_toJson (condition : Condition) :
    Condition.read format none condition.toJson.toNode = .ok condition := by
  cases condition with
  | list combinator children =>
    have read := reads_toJsons children
    cases combinator with
    | all => exact read_single (.designs read)
    | any => exact read_single (.either read)
  | design expression => exact read_single (.design expression)
  | binding expression => exact read_single (.binding expression)

theorem reads_toJsons (children : List Condition) :
    List.Forall₂ (fun item child => Condition.read format none item.toNode = .ok child) (toJsons children)
      children := by
  cases children with
  | nil => exact .nil
  | cons child rest => exact .cons (read_toJson child) (reads_toJsons rest)
end

end Condition
end ThreatModel
