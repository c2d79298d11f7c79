import ThreatModel.Proofs.Diagram.Order
import ThreatModel.Proofs.Diagram.Parts
import ThreatModel.Proofs.Document.Form

/-!
# Diagrams that are written and read again

What an object is written as after it was read is said by rewriting the object itself, without reading it: a category
has two forms, of which one is written, a null name is left out, and what is not there is written as empty. Main
statement: a diagram that was read is written as its object rewritten, and read again as the same diagram.
-/

namespace ThreatModel

/-! ## The written form -/

namespace Json

/-- The fields with a value under a name that is not there. -/
def withDefault (name : String) (default : Json) (fields : List (String × Json)) : List (String × Json) :=
  if (field? name fields).isSome then fields else insertField name default fields

/-- The fields with the value of a name changed. -/
def changeField (name : String) (change : Json → Json) (fields : List (String × Json)) : List (String × Json) :=
  fields.map fun field => (field.1, if field.1 = name then change field.2 else field.2)

end Json

/-- A category as it is written: the key of an object that holds null under it alone, or else the value itself. -/
def Category.rewrite : Json → Json
  | .object [(name, .null)] => .text name
  | other => other

/-- The fields of metadata as they are written, given how the category is: a null name is left out. -/
def ElementMetadata.rewriteFields (category : Json → Json) (fields : List (String × Json)) : List (String × Json) :=
  Json.changeField "element" category (fields.filter fun field => !(field.1 = "name" && field.2.isNull))

def ElementMetadata.rewrite (category : Json → Json) : Json → Json
  | .object fields => .object (rewriteFields category fields)
  | other => other

/-- The fields of an element as they are written: relations that are not there are none. -/
def Element.rewriteFields (category : Json → Json) (fields : List (String × Json)) : List (String × Json) :=
  Json.withDefault "attached" (.object []) (Json.changeField "metadata" (ElementMetadata.rewrite category) fields)

def Element.rewrite (category : Json → Json) : Json → Json
  | .object fields => .object (rewriteFields category fields)
  | other => other

/-- A diagram as it is written: nothing but the elements, of which there are none if they are not there. -/
def Diagram.rewrite (category : Json → Json) (fields : List (String × Json)) : Json :=
  match Json.field? "elements" fields with
  | some (.array items) => .object [("elements", .array (items.map (Element.rewrite category)))]
  | _ => .object [("elements", .array [])]

namespace Json

variable {name : String} {fields : List (String × Json)}

theorem field?_changeField (other : String) (change : Json → Json) :
    field? other (changeField name change fields) =
      (field? other fields).map fun value => if other = name then change value else value :=
  field?_map fun field value => if field = name then change value else value

theorem field?_withDefault (other : String) (default : Json) :
    field? other (withDefault name default fields) =
      if other = name then some ((field? name fields).getD default) else field? other fields := by
  unfold withDefault
  split
  · rename_i held
    obtain ⟨value, found⟩ := Option.isSome_iff_exists.mp held
    split
    · rename_i same
      rw [same, found, Option.getD_some]
    · rfl
  · rename_i absent
    rw [field?_insertField, Option.not_isSome_iff_eq_none.mp absent, Option.getD_none]
    simp only [eq_comm]

theorem pairwise_changeField {change : Json → Json} (ordered : fields.Pairwise (·.1 < ·.1)) :
    (changeField name change fields).Pairwise (·.1 < ·.1) :=
  List.pairwise_map.mpr ordered

theorem pairwise_withDefault {default : Json} (ordered : fields.Pairwise (·.1 < ·.1)) :
    (withDefault name default fields).Pairwise (·.1 < ·.1) := by
  unfold withDefault
  split
  · exact ordered
  · exact pairwise_insertField ordered

/-- A change of values after which they are in order if they were before. -/
def KeepsOrder (change : Json → Json) : Prop := ∀ value : Json, value.Ordered → (change value).Ordered

theorem ordered_changeField {change : Json → Json} (keeps : KeepsOrder change) (ordered : (object fields).Ordered) :
    (object (changeField name change fields)).Ordered := by
  refine ⟨pairwise_changeField ordered.1, fieldsOrdered_iff.mpr fun field member => ?_⟩
  obtain ⟨old, there, rfl⟩ := List.mem_map.mp member
  have inside := fieldsOrdered_iff.mp ordered.2 old there
  dsimp only
  split
  · exact keeps old.2 inside
  · exact inside

theorem ordered_withDefault {default : Json} (ordered_default : default.Ordered) (ordered : (object fields).Ordered) :
    (object (withDefault name default fields)).Ordered := by
  refine ⟨pairwise_withDefault ordered.1, fieldsOrdered_iff.mpr ?_⟩
  have values := fieldsOrdered_iff.mp ordered.2
  unfold withDefault
  split
  · exact values
  · intro field member
    rcases mem_insertField member with rfl | inside
    · exact ordered_default
    · exact values field inside

theorem ordered_filter (keep : String × Json → Bool) (ordered : (object fields).Ordered) :
    (object (fields.filter keep)).Ordered :=
  ⟨ordered.1.filter _, fieldsOrdered_iff.mpr fun field member =>
    fieldsOrdered_iff.mp ordered.2 field (List.mem_of_mem_filter member)⟩

/-- What is read as a record, and never as a list, is an object. -/
theorem exists_object {σ α : Type} {format : Format} {names : List String}
    {step : σ → String → Node → Except Fault σ} {start : σ} {finish : σ → Except Fault α} {value : Json} {content : α}
    (read : value.toNode.record { format with positional := false } names step start finish = .ok content) :
    ∃ fields, value = .object fields ∧ ∃ slots, fill step start fields = .ok slots ∧ finish slots = .ok content := by
  cases value with
  | object fields =>
    rw [record_object] at read
    exact ⟨fields, rfl, Except.bind_eq_ok.mp read⟩
  | _ => cases read

end Json

/-! ## Categories -/

namespace Category

variable {format : Format} {value : Json} {category : Category}

theorem keepsOrder_rewrite : Json.KeepsOrder rewrite := by
  intro value ordered
  fun_cases rewrite value with
  | case1 => trivial
  | case2 => exact ordered

theorem named_eq_ok {name : String} : Node.choice.named ofName? name = .ok category ↔ name = category.name := by
  unfold Node.choice.named
  constructor
  · intro read
    split at read
    · rename_i found
      cases read
      exact eq_name _ _ found
    · cases read
  · rintro rfl
    rw [ofName?_name]

theorem null_of_nothing (read : Node.choice.nothing value.toNode = .ok ()) : value = .null := by
  cases value with
  | null => rfl
  | _ => cases read

/-- A category that was read is written as its name. -/
theorem rewrite_of_choice (read : value.toNode.choice format ofName? = .ok category) :
    rewrite value = .text category.name := by
  cases value with
  | text content =>
    rw [named_eq_ok.mp read]
    rfl
  | object fields =>
    simp only [Json.toNode, Node.choice] at read
    split at read
    · cases fields with
      | nil => cases read
      | cons field others =>
        cases others with
        | nil =>
          obtain ⟨name, value⟩ := field
          obtain ⟨_, key, named⟩ := Except.bind_eq_ok.mp read
          obtain ⟨_, chosen, rest⟩ := Except.bind_eq_ok.mp named
          obtain ⟨_, nothing, made⟩ := Except.bind_eq_ok.mp rest
          cases key
          cases made
          rw [null_of_nothing nothing, named_eq_ok.mp chosen]
          rfl
        | cons other others =>
          simp only [Json.fieldNodes] at read
          split at read
          · cases read
          · obtain ⟨_, _, named⟩ := Except.bind_eq_ok.mp read
            obtain ⟨_, _, rest⟩ := Except.bind_eq_ok.mp named
            obtain ⟨_, _, made⟩ := Except.bind_eq_ok.mp rest
            cases made
    · cases read
  | _ => cases read

theorem choice_name (format : Format) (category : Category) :
    (Json.text category.name).toNode.choice format ofName? = .ok category :=
  named_eq_ok.mpr rfl

end Category

/-! ## Metadata -/

namespace ElementMetadata

variable {format : Format} {slots : Slots} {fields : List (String × Json)} {metadata : ElementMetadata}

theorem keepsOrder_rewrite {category : Json → Json} (keeps : Json.KeepsOrder category) :
    Json.KeepsOrder (rewrite category) := by
  intro value ordered
  cases value with
  | object fields => exact Json.ordered_changeField keeps (Json.ordered_filter _ ordered)
  | _ => exact ordered

theorem finish_eq_ok : finish slots = .ok metadata ↔
    slots.category = some metadata.category ∧ slots.shape = some metadata.shape ∧
      slots.name.join = metadata.name ∧ slots.extra = metadata.extra := by
  unfold finish
  constructor
  · intro finished
    obtain ⟨category, held, finished⟩ := Except.bind_eq_ok.mp finished
    obtain ⟨shape, kept, finished⟩ := Except.bind_eq_ok.mp finished
    cases finished
    exact ⟨Node.required_eq_ok.mp held, Node.required_eq_ok.mp kept, rfl, rfl⟩
  · rintro ⟨category, shape, name, extra⟩
    rw [category, shape, name, extra]
    rfl

/-- A null is no name. -/
theorem name_toNode {value : Json} {name : Option String} (read : value.toNode.optional Node.text = .ok name) :
    (some value).filter (!·.isNull) = name.map .text := by
  cases value with
  | null =>
    cases read
    rfl
  | text content =>
    cases read
    rfl
  | _ => cases read

/-- What metadata that were read hold under the names that they have for themselves. -/
structure Told (fields : List (String × Json)) (metadata : ElementMetadata) : Prop where
  category : (Json.field? "element" fields).map Category.rewrite = some (.text metadata.category.name)
  shape : Json.field? "shape" fields = some (.text metadata.shape)
  name : (Json.field? "name" fields).filter (!·.isNull) = metadata.name.map .text

theorem told_of_holds (holds : (record format).Holds fields slots) (finished : finish slots = .ok metadata) :
    Told fields metadata := by
  obtain ⟨category, shape, name, -⟩ := finish_eq_ok.mp finished
  refine ⟨?_, ?_, ?_⟩
  · obtain ⟨value, found, read⟩ := Json.readField?_eq_some.mp ((holds.part .category).trans (congrArg _ category))
    have found : Json.field? "element" fields = some value := found
    rw [found, Option.map_some, Category.rewrite_of_choice read]
  · obtain ⟨value, found, read⟩ := Json.readField?_eq_some.mp ((holds.part .shape).trans (congrArg _ shape))
    exact found.trans (congrArg some (Json.text_toNode.mp read))
  · have held := holds.part .name
    rw [← name]
    rcases full : slots.name with _ | name
    · have absent : Json.field? "name" fields = none :=
        Json.readField?_eq_none.mp (held.trans (congrArg _ full))
      rw [absent]
      rfl
    · obtain ⟨value, found, read⟩ := Json.readField?_eq_some.mp (held.trans (congrArg _ full))
      have found : Json.field? "name" fields = some value := found
      rw [found]
      exact name_toNode read

theorem field?_rewriteFields {name : String} (category : Json → Json) (nodup : (fields.map Prod.fst).Nodup)
    (notElement : name ≠ "element") (notName : name ≠ "name") :
    Json.field? name (rewriteFields category fields) = Json.field? name fields := by
  rw [rewriteFields, Json.field?_changeField, Json.field?_filter nodup]
  cases Json.field? name fields with
  | none => rfl
  | some value => simp [notElement, notName]

/-- The rewritten fields hold what was read. -/
theorem Told.rewritten (told : Told fields metadata) (nodup : (fields.map Prod.fst).Nodup) :
    Json.field? "element" (rewriteFields Category.rewrite fields) = some (.text metadata.category.name) ∧
      Json.field? "shape" (rewriteFields Category.rewrite fields) = some (.text metadata.shape) ∧
      Json.field? "name" (rewriteFields Category.rewrite fields) = metadata.name.map .text := by
  refine ⟨?_, ?_, ?_⟩
  · rw [rewriteFields, Json.field?_changeField, Json.field?_filter nodup, ← told.category]
    cases Json.field? "element" fields <;> rfl
  · rw [field?_rewriteFields _ nodup (by decide) (by decide), told.shape]
  · rw [rewriteFields, Json.field?_changeField, Json.field?_filter nodup, ← told.name]
    cases Json.field? "name" fields with
    | none => rfl
    | some value => cases value <;> rfl

/-- Metadata that were read from an object that is in order are written as the object rewritten, and read again. -/
theorem rewritten_of_ofNode {value : Json} (ordered : value.Ordered)
    (read : ofNode format value.toNode = .ok metadata) :
    metadata.toJson = rewrite Category.rewrite value ∧ ofNode format metadata.toJson.toNode = .ok metadata := by
  obtain ⟨fields, rfl, slots, run, finished⟩ := Json.exists_object read
  have nodup := Json.nodup_of_pairwise ordered.1
  have holds : (record format).Holds fields slots :=
    (OpenRecord.fill_eq_ok ordered.1 (Json.fieldsOrdered_iff.mp ordered.2)).mp run
  obtain ⟨element, shape, named⟩ := (told_of_holds holds finished).rewritten nodup
  obtain ⟨-, -, -, extra⟩ := finish_eq_ok.mp finished
  have ordered' : (rewrite Category.rewrite (.object fields)).Ordered :=
    keepsOrder_rewrite Category.keepsOrder_rewrite _ ordered
  have agree (name : String) (free : (record format).isFree name = true) :
      Json.field? name (rewriteFields Category.rewrite fields) = Json.field? name fields :=
    field?_rewriteFields _ nodup (OpenRecord.isFree_iff.mp free .category) (OpenRecord.isFree_iff.mp free .name)
  have written : metadata.toJson = .object (rewriteFields Category.rewrite fields) := by
    rw [toJson, ← extra]
    refine holds.ofFields_eq ordered.1 ordered'.1 agree ?_ ?_ fun part => ?_
    · cases metadata.name <;> simp
    · intro field member
      rcases List.mem_append.mp member with fixed | optional
      · rcases List.mem_cons.mp fixed with rfl | fixed
        · exact ⟨.category, rfl⟩
        · exact ⟨.shape, congrArg Prod.fst (List.mem_singleton.mp fixed)⟩
      · obtain ⟨name, -, rfl⟩ := Option.map_eq_some_iff.mp (Option.mem_toList.mp optional)
        exact ⟨.name, rfl⟩
    · cases part with
      | category => exact element.symm
      | shape => exact shape.symm
      | name =>
        refine Eq.trans ?_ named.symm
        cases metadata.name <;> rfl
  refine ⟨written, ?_⟩
  -- Slots that hold what is written.
  have again : (record format).Holds (rewriteFields Category.rewrite fields)
      ⟨some metadata.category, some metadata.shape, metadata.name.map some, slots.extra⟩ := by
    refine holds.agree ordered.1 ordered'.1 rfl agree fun part => ?_
    cases part with
    | category => exact Json.readField?_eq_some.mpr ⟨_, element, Category.choice_name format _⟩
    | shape => exact Json.readField?_eq_some.mpr ⟨_, shape, rfl⟩
    | name =>
      rcases name : metadata.name with _ | name
      · rw [name] at named
        exact Json.readField?_eq_none.mpr named
      · rw [name] at named
        exact Json.readField?_eq_some.mpr ⟨_, named, rfl⟩
  rw [written, ofNode, Json.record_object]
  have filled := (OpenRecord.fill_eq_ok ordered'.1 (Json.fieldsOrdered_iff.mp ordered'.2)).mpr again
  refine Except.bind_eq_ok.mpr ⟨_, filled, ?_⟩
  exact finish_eq_ok.mpr ⟨rfl, rfl, by cases metadata.name <;> rfl, extra⟩

end ElementMetadata
/-! ## Relations -/

theorem Relation.toJson_of_ofJson? {value : Json} {relation : Relation} (read : ofJson? value = some relation) :
    relation.toJson = value := by
  have texts {items : List Json} {targets : List String} (read : items.mapM ofJson?.textOf? = some targets) :
      targets.map .text = items := by
    induction items generalizing targets with
    | nil =>
      cases read
      rfl
    | cons item rest ih =>
      rw [List.mapM_cons] at read
      obtain ⟨target, first, read⟩ := Option.bind_eq_some_iff.mp read
      obtain ⟨more, others, made⟩ := Option.bind_eq_some_iff.mp read
      cases made
      cases item with
      | text content =>
        cases first
        rw [List.map_cons, ih others]
      | _ => cases first
  cases value with
  | text target =>
    cases read
    rfl
  | array items =>
    obtain ⟨targets, found, rfl⟩ := Option.map_eq_some_iff.mp read
    rw [toJson, texts found]
  | _ => cases read

namespace Element

/-- Relations as the fields of an object. -/
def relationFields (attached : List (String × Relation)) : List (String × Json) :=
  attached.map fun (name, relation) => (name, relation.toJson)

variable {format : Format} {slots : Slots} {fields : List (String × Json)} {e : Element}
  {attached : List (String × Relation)}

theorem relationFields_insertRelation (name : String) (relation : Relation) (sorted : List (String × Relation)) :
    relationFields (attachedOf.insertRelation name relation sorted) =
      Json.insertField name relation.toJson (relationFields sorted) := by
  fun_induction attachedOf.insertRelation name relation sorted with
  | case1 => rfl
  | case2 key old rest before => simp only [relationFields, List.map_cons, Json.insertField, if_pos before]
  | case3 old rest before => simp only [relationFields, List.map_cons, Json.insertField, if_neg before, if_true]
  | case4 key old rest notBefore apart ih =>
    simp only [relationFields, List.map_cons, Json.insertField, if_neg notBefore, if_neg apart] at ih ⊢
    rw [ih]

theorem relationFields_foldl (found sorted : List (String × Relation)) :
    relationFields
        (found.foldl (fun sorted (name, relation) => attachedOf.insertRelation name relation sorted) sorted) =
      (relationFields found).foldl (fun sorted (name, value) => Json.insertField name value sorted)
        (relationFields sorted) := by
  induction found generalizing sorted with
  | nil => rfl
  | cons entry rest ih =>
    rw [List.foldl_cons, ih, relationFields_insertRelation]
    rfl

theorem toJson_of_relationOf {value : Json} {relation : Relation} (ordered : value.Ordered)
    (read : attachedOf.relationOf format value.toNode = .ok relation) : relation.toJson = value := by
  obtain ⟨found, free, read⟩ := Except.bind_eq_ok.mp read
  cases Json.eq_of_ofNode ordered free
  split at read
  · rename_i known
    cases read
    exact Relation.toJson_of_ofJson? known
  · cases read

theorem relationFields_of_mapM {found : List (String × Relation)} (ordered : Json.FieldsOrdered fields)
    (read : ((Json.fieldNodes fields).mapM fun (key, value) => do
      let name ← key.text
      let relation ← attachedOf.relationOf format value
      return (name, relation)) = Except.ok found) : relationFields found = fields := by
  induction fields generalizing found with
  | nil =>
    cases read
    rfl
  | cons field rest ih =>
    rw [Json.fieldNodes, List.mapM_cons] at read
    obtain ⟨entry, first, behind⟩ := Except.bind_eq_ok.mp read
    obtain ⟨more, others, made⟩ := Except.bind_eq_ok.mp behind
    obtain ⟨name, key, related⟩ := Except.bind_eq_ok.mp first
    obtain ⟨relation, target, paired⟩ := Except.bind_eq_ok.mp related
    cases key
    cases paired
    cases made
    show (field.1, relation.toJson) :: relationFields more = field :: rest
    rw [ih ordered.2 others, toJson_of_relationOf ordered.1 target]

/-- Relations that were read are those of the object. -/
theorem eq_relationFields {value : Json} (ordered : value.Ordered)
    (read : attachedOf format value.toNode = .ok attached) :
    value = .object (relationFields attached) := by
  cases value with
  | object fields =>
    obtain ⟨found, run, made⟩ := Except.bind_eq_ok.mp read
    cases made
    rw [relationFields_foldl, relationFields_of_mapM ordered.2 run]
    exact congrArg Json.object (Json.sortFields_eq ordered.1).symm
  | _ => cases read

/-! ## Elements -/

theorem keepsOrder_rewrite {category : Json → Json} (keeps : Json.KeepsOrder category) :
    Json.KeepsOrder (rewrite category) := by
  intro value ordered
  cases value with
  | object fields =>
    exact Json.ordered_withDefault ⟨.nil, trivial⟩
      (Json.ordered_changeField (ElementMetadata.keepsOrder_rewrite keeps) ordered)
  | _ => exact ordered

theorem finish_eq_ok : finish slots = .ok e ↔
    slots.id = some e.id ∧ slots.metadata = some e.metadata ∧ slots.attached.getD [] = e.attached ∧
      slots.attributes = e.attributes := by
  unfold finish
  constructor
  · intro finished
    obtain ⟨id, held, finished⟩ := Except.bind_eq_ok.mp finished
    obtain ⟨metadata, kept, finished⟩ := Except.bind_eq_ok.mp finished
    cases finished
    exact ⟨Node.required_eq_ok.mp held, Node.required_eq_ok.mp kept, rfl, rfl⟩
  · rintro ⟨id, metadata, attached, attributes⟩
    rw [id, metadata, attached, attributes]
    rfl

/-- What an element that was read holds under the names that it has for itself. -/
structure Told (format : Format) (fields : List (String × Json)) (e : Element) : Prop where
  id : Json.field? "id" fields = some (.text e.id)
  metadata : (Json.field? "metadata" fields).map (ElementMetadata.rewrite Category.rewrite) = some e.metadata.toJson
  again : ElementMetadata.ofNode format e.metadata.toJson.toNode = .ok e.metadata
  attached : (Json.field? "attached" fields).getD (.object []) = .object (relationFields e.attached)
  relations : attachedOf format (Json.object (relationFields e.attached)).toNode = .ok e.attached

theorem told_of_holds (holds : (record format).Holds fields slots) (finished : finish slots = .ok e)
    (ordered : (Json.object fields).Ordered) : Told format fields e := by
  obtain ⟨id, metadata, attached, -⟩ := finish_eq_ok.mp finished
  have values := Json.fieldsOrdered_iff.mp ordered.2
  obtain ⟨value, named, read⟩ := Json.readField?_eq_some.mp ((holds.part .id).trans (congrArg _ id))
  obtain ⟨data, kept, understood⟩ := Json.readField?_eq_some.mp ((holds.part .metadata).trans (congrArg _ metadata))
  obtain ⟨rewritten, again⟩ :=
    ElementMetadata.rewritten_of_ofNode (values _ (Json.mem_of_field? kept)) understood
  have relations : (Json.field? "attached" fields).getD (.object []) = .object (relationFields e.attached) ∧
      attachedOf format (Json.object (relationFields e.attached)).toNode = .ok e.attached := by
    have held := holds.part .attached
    rw [← attached]
    rcases full : slots.attached with _ | relations
    · have absent : Json.field? "attached" fields = none := Json.readField?_eq_none.mp (held.trans (congrArg _ full))
      rw [absent]
      exact ⟨rfl, rfl⟩
    · obtain ⟨value, found, read⟩ := Json.readField?_eq_some.mp (held.trans (congrArg _ full))
      have found : Json.field? "attached" fields = some value := found
      have same := eq_relationFields (values _ (Json.mem_of_field? found)) read
      rw [found, Option.getD_some, Option.getD_some, ← same]
      exact ⟨rfl, read⟩
  have kept : Json.field? "metadata" fields = some data := kept
  refine ⟨named.trans (congrArg some (Json.text_toNode.mp read)), ?_, again, relations.1, relations.2⟩
  rw [kept, Option.map_some, rewritten]

/-- The rewritten fields hold what was read. -/
theorem Told.rewritten (told : Told format fields e) :
    Json.field? "id" (rewriteFields Category.rewrite fields) = some (.text e.id) ∧
      Json.field? "metadata" (rewriteFields Category.rewrite fields) = some e.metadata.toJson ∧
      Json.field? "attached" (rewriteFields Category.rewrite fields) = some (.object (relationFields e.attached)) := by
  simp only [rewriteFields, Json.field?_withDefault, Json.field?_changeField]
  refine ⟨?_, ?_, ?_⟩
  · rw [told.id]
    rfl
  · rw [← told.metadata]
    rfl
  · rw [← told.attached]
    cases Json.field? "attached" fields <;> rfl

theorem field?_rewriteFields {name : String} (category : Json → Json) (notMetadata : name ≠ "metadata")
    (notAttached : name ≠ "attached") :
    Json.field? name (rewriteFields category fields) = Json.field? name fields := by
  rw [rewriteFields, Json.field?_withDefault, if_neg notAttached, Json.field?_changeField]
  simp only [if_neg notMetadata, Option.map_id']

/-- An element that was read from an object that is in order is written as the object rewritten, and read again. -/
theorem rewritten_of_ofNode {value : Json} (ordered : value.Ordered) (read : ofNode format value.toNode = .ok e) :
    e.toJson = rewrite Category.rewrite value ∧ ofNode format e.toJson.toNode = .ok e := by
  obtain ⟨fields, rfl, slots, run, finished⟩ := Json.exists_object read
  have holds : (record format).Holds fields slots :=
    (OpenRecord.fill_eq_ok ordered.1 (Json.fieldsOrdered_iff.mp ordered.2)).mp run
  have told := told_of_holds holds finished ordered
  obtain ⟨id, metadata, attached⟩ := told.rewritten
  obtain ⟨-, -, -, attributes⟩ := finish_eq_ok.mp finished
  have ordered' : (rewrite Category.rewrite (.object fields)).Ordered :=
    keepsOrder_rewrite Category.keepsOrder_rewrite _ ordered
  have agree (name : String) (free : (record format).isFree name = true) :
      Json.field? name (rewriteFields Category.rewrite fields) = Json.field? name fields :=
    field?_rewriteFields _ (OpenRecord.isFree_iff.mp free .metadata) (OpenRecord.isFree_iff.mp free .attached)
  have written : e.toJson = .object (rewriteFields Category.rewrite fields) := by
    rw [toJson, ← attributes]
    refine holds.ofFields_eq ordered.1 ordered'.1 agree (by simp) ?_ fun part => ?_
    · exact List.forall_mem_cons.mpr ⟨⟨.id, rfl⟩,
        List.forall_mem_cons.mpr ⟨⟨.metadata, rfl⟩, List.forall_mem_singleton.mpr ⟨.attached, rfl⟩⟩⟩
    · cases part with
      | id => exact id.symm
      | metadata => exact metadata.symm
      | attached => exact attached.symm
  refine ⟨written, ?_⟩
  -- Slots that hold what is written.
  have again : (record format).Holds (rewriteFields Category.rewrite fields)
      ⟨some e.id, some e.metadata, some e.attached, slots.attributes⟩ := by
    refine holds.agree ordered.1 ordered'.1 rfl agree fun part => ?_
    cases part with
    | id => exact Json.readField?_eq_some.mpr ⟨_, id, rfl⟩
    | metadata => exact Json.readField?_eq_some.mpr ⟨_, metadata, told.again⟩
    | attached => exact Json.readField?_eq_some.mpr ⟨_, attached, told.relations⟩
  rw [written, ofNode, Json.record_object]
  have filled := (OpenRecord.fill_eq_ok ordered'.1 (Json.fieldsOrdered_iff.mp ordered'.2)).mpr again
  refine Except.bind_eq_ok.mpr ⟨_, filled, ?_⟩
  exact finish_eq_ok.mpr ⟨rfl, rfl, rfl, attributes⟩

end Element
/-! ## Diagrams -/

namespace Diagram

variable {format : Format} {fields : List (String × Json)} {diagram : Diagram}

theorem step_fills {slots next : Option (List Element)} {field : String} {value : Node}
    (stepped : step format slots field value = .ok next) :
    Node.Fills "elements" (Node.items (Element.ofNode format)) field value slots next := by
  unfold step at stepped
  split at stepped
  · exact .of_once stepped
  · rename_i other
    obtain ⟨_, _, made⟩ := Except.bind_eq_ok.mp stepped
    cases made
    exact .of_ne other

theorem finish_congr {slots others : Option (List Element)} (same : slots.getD [] = others.getD []) :
    finish slots = finish others := by
  rw [finish, finish, same]

/-- Elements that were read are written as the items rewritten, and read again. -/
theorem rewritten_of_mapM {items : List Json} {elements : List Element} (ordered : Json.ItemsOrdered items)
    (read : (Json.itemNodes items).mapM (Element.ofNode format) = .ok elements) :
    elements.map Element.toJson = items.map (Element.rewrite Category.rewrite) ∧
      (Json.itemNodes (elements.map Element.toJson)).mapM (Element.ofNode format) = .ok elements := by
  induction items generalizing elements with
  | nil =>
    cases read
    exact ⟨rfl, rfl⟩
  | cons item rest ih =>
    rw [Json.itemNodes, List.mapM_cons] at read
    obtain ⟨e, first, behind⟩ := Except.bind_eq_ok.mp read
    obtain ⟨more, others, made⟩ := Except.bind_eq_ok.mp behind
    cases made
    obtain ⟨written, again⟩ := Element.rewritten_of_ofNode ordered.1 first
    obtain ⟨allWritten, allAgain⟩ := ih ordered.2 others
    refine ⟨by rw [List.map_cons, List.map_cons, written, allWritten], ?_⟩
    rw [List.map_cons, Json.itemNodes, List.mapM_cons, again, allAgain]
    rfl

/-- A diagram that is written is read again where its elements are. -/
theorem ofNode_toJson {slots : Option (List Element)} (finished : finish slots = .ok diagram)
    (again : (Json.itemNodes (diagram.elements.map Element.toJson)).mapM (Element.ofNode format) =
      .ok diagram.elements) : ofNode format diagram.toJson.toNode = .ok diagram := by
  have run : Json.fill (step format) none [("elements", .array (diagram.elements.map Element.toJson))] =
      .ok (some diagram.elements) := by
    refine Except.bind_eq_ok.mpr ⟨some diagram.elements, ?_, rfl⟩
    show Node.once "elements" none _ = _
    exact Node.once_eq_ok.mpr ⟨rfl, diagram.elements, again, rfl⟩
  have same : (some diagram.elements).getD [] = slots.getD [] := elements_of_finish finished
  rw [toJson, ofNode, Json.record_object]
  exact Except.bind_eq_ok.mpr ⟨_, run, (finish_congr same).trans finished⟩

/-- A diagram that was read from an object that is in order is written as the object rewritten, and read again. -/
theorem toJson_of_ofNode (ordered : (Json.object fields).Ordered)
    (read : ofNode format (Json.object fields).toNode = .ok diagram) :
    diagram.toJson = rewrite Category.rewrite fields ∧ ofNode format diagram.toJson.toNode = .ok diagram := by
  rw [ofNode, Json.record_object] at read
  obtain ⟨slots, run, finished⟩ := Except.bind_eq_ok.mp read
  have elements := elements_of_finish finished
  have held := (Json.readField?_eq_ok (Json.nodup_of_pairwise ordered.1)).mpr
    (Json.held_of_fill (fun slots => slots) (fun _ _ _ _ => step_fills) rfl run)
  cases slots with
  | none =>
    have elements : diagram.elements = [] := elements
    refine ⟨?_, ofNode_toJson finished ?_⟩
    · rw [toJson, rewrite, Json.readField?_eq_none.mp held, elements]
      rfl
    · rw [elements]
      rfl
  | some taken =>
    obtain ⟨value, found, all⟩ := Json.readField?_eq_some.mp held
    have elements : diagram.elements = taken := elements
    subst elements
    cases value with
    | array items =>
      have inside : Json.ItemsOrdered items :=
        Json.fieldsOrdered_iff.mp ordered.2 _ (Json.mem_of_field? found)
      obtain ⟨written, again⟩ := rewritten_of_mapM inside all
      refine ⟨?_, ofNode_toJson finished again⟩
      rw [toJson, rewrite, found, written]
    | _ => cases all

/-- One element with a null name, a category given as a key, and no relations, and a field beside the elements. -/
def sparseFields : List (String × Json) :=
  [("elements", .array [.object [("id", .text "a"), ("metadata", .object [("color", .text "red"),
    ("element", .object [("zone", .null)]), ("name", .null), ("shape", .text "s")]), ("trust", .int 3)]]),
    ("version", .int 2)]

def sparse : Diagram := ⟨[⟨"a", ⟨.zone, "s", none, [("color", .text "red")]⟩, [], [("trust", .int 3)]⟩], by decide⟩

theorem toJson_of_ofNode_sparse :
    (Json.object sparseFields).Ordered ∧ ofNode .held (Json.object sparseFields).toNode = .ok sparse ∧
      sparse.toJson = rewrite Category.rewrite sparseFields ∧ ofNode .held sparse.toJson.toNode = .ok sparse := by
  have ordered : (Json.object sparseFields).Ordered := by
    simp only [sparseFields, Json.Ordered, Json.ItemsOrdered, Json.FieldsOrdered]
    decide
  have read : ofNode .held (Json.object sparseFields).toNode = .ok sparse := by rfl
  exact ⟨ordered, read, toJson_of_ofNode ordered read⟩

/-- One element whose category is given as a key. -/
def keyedFields : List (String × Json) :=
  [("elements", .array [.object [("attached", .object []), ("id", .text "a"),
    ("metadata", .object [("element", .object [("zone", .null)]), ("shape", .text "s")])]])]

/-- A category that is given as a key is not written as it was. -/
theorem toJson_ne_keyed :
    ∃ diagram, (Json.object keyedFields).Ordered ∧ ofNode .held (Json.object keyedFields).toNode = .ok diagram ∧
      diagram.toJson ≠ rewrite id keyedFields := by
  refine ⟨⟨[⟨"a", ⟨.zone, "s", none, []⟩, [], []⟩], by decide⟩, ?_, rfl, ?_⟩
  · simp only [keyedFields, Json.Ordered, Json.ItemsOrdered, Json.FieldsOrdered]
    decide
  · intro same
    cases same

end Diagram
end ThreatModel
