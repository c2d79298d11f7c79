import ThreatModel.Evaluation
import ThreatModel.Proofs.Identity
import ThreatModel.Proofs.Path.Reach
import Mathlib.Data.List.Perm.Basic

/-!
# Comparing a path with a literal

Evaluation follows a path with all choices at once: it keeps the values of all spots in one list, flattens
the arrays of data that it meets and drops what leads nowhere. Main statement: the list is that of the spots
which the path reaches, in the order of the document, and so a comparison with a literal holds exactly if it
holds for one of them.
-/

namespace ThreatModel

/-! ## Values as lists -/

namespace Value

mutual
theorem isLeafData_leaves (data : Json) : ∀ leaf ∈ leaves data, isLeafData leaf = true := by
  cases data with
  | array items => simpa only [leaves] using isLeafData_leavesOf items
  | _ => simp [leaves, isLeafData]

theorem isLeafData_leavesOf (items : List Json) : ∀ leaf ∈ leavesOf items, isLeafData leaf = true := by
  cases items with
  | nil => simp [leavesOf]
  | cons item rest =>
    rw [leavesOf]
    exact List.forall_mem_append.mpr ⟨isLeafData_leaves item, isLeafData_leavesOf rest⟩
end

theorem normal_ofJson (data : Json) : (ofJson data).Normal := by
  cases data with
  | array items =>
    intro value member
    obtain ⟨leaf, inside, rfl⟩ := List.mem_map.mp member
    exact isLeafData_leavesOf items leaf inside
  | _ => rfl

theorem normal_ofRelation (relation : Relation) : (ofRelation relation).Normal := by
  cases relation with
  | one target => trivial
  | many targets => simp [ofRelation, Normal, isItem]

theorem normal_ofField (e : Element) (segment : String) : (ofField e segment).Normal := by
  unfold ofField
  split
  · rfl
  split
  · exact normal_ofJson _
  split
  · trivial
  split
  · exact normal_ofJson _
  · trivial

/-- What a normal value contributes to a list is fit to stand in one. -/
theorem Normal.isItem {value : Value} (normal : value.Normal) :
    ∀ item ∈ value.contribution, item.isItem = true := by
  cases value with
  | undefined => simp [contribution]
  | list items => exact normal
  | json data => simpa [contribution, Value.isItem, Normal] using normal
  | element id => simp [contribution, Value.isItem]
  | relations id => simp [contribution, Value.isItem]

theorem contribution_of_isItem {item : Value} (fit : item.isItem = true) : item.contribution = [item] := by
  cases item with
  | undefined => simp [isItem] at fit
  | list items => simp [isItem] at fit
  | _ => rfl

theorem Normal.flatMap_contribution {value : Value} (normal : value.Normal) :
    value.contribution.flatMap contribution = value.contribution := by
  have single : value.contribution.flatMap contribution = value.contribution.flatMap fun item => [item] :=
    List.flatMap_congr fun item member => contribution_of_isItem (normal.isItem item member)
  simpa using single

variable (diagram : Diagram)

mutual
/-- A step of a path gives a normal value, whatever it starts from. -/
theorem normal_step (segment : String) (value : Value) : (step diagram segment value).Normal := by
  cases value with
  | undefined => rw [step]; trivial
  | json data =>
    cases data with
    | object fields =>
      rw [step]
      split
      · exact normal_ofJson _
      · trivial
    | _ => simp [step, Normal]
  | element id =>
    rw [step]
    split
    · exact normal_ofField ..
    · trivial
  | relations id =>
    rw [step]
    split
    · exact normal_ofRelation _
    · trivial
  | list items =>
    rw [step]
    exact isItem_stepItems segment items

theorem isItem_stepItems (segment : String) (items : List Value) :
    ∀ item ∈ stepItems diagram segment items, item.isItem = true := by
  cases items with
  | nil => simp [stepItems]
  | cons item rest =>
    rw [stepItems]
    exact List.forall_mem_append.mpr ⟨(normal_step segment item).isItem, isItem_stepItems segment rest⟩
end

theorem stepItems_eq_flatMap (segment : String) (items : List Value) :
    stepItems diagram segment items =
      items.flatMap fun item => (step diagram segment item).contribution := by
  induction items with
  | nil => rw [stepItems]; rfl
  | cons item rest ih => rw [stepItems, ih, List.flatMap_cons]

/-- A step is taken by each item of a value on its own. -/
theorem contribution_step (segment : String) (value : Value) :
    (step diagram segment value).contribution =
      value.contribution.flatMap fun item => (step diagram segment item).contribution := by
  cases value with
  | undefined => simp [step, contribution]
  | list items =>
    rw [step]
    exact stepItems_eq_flatMap diagram segment items
  | _ => simp only [contribution, List.flatMap_cons, List.flatMap_nil, List.append_nil]

/-- A path is followed by each item of a value on its own. -/
theorem contribution_walk {value : Value} (normal : value.Normal) (segments : List String) :
    (walk diagram value segments).contribution =
      value.contribution.flatMap fun item => (walk diagram item segments).contribution := by
  induction segments generalizing value with
  | nil => exact normal.flatMap_contribution.symm
  | cons segment rest ih =>
    have apart (item : Value) : (walk diagram item (segment :: rest)).contribution =
        (step diagram segment item).contribution.flatMap fun item => (walk diagram item rest).contribution :=
      ih (normal_step diagram segment item)
    rw [apart, contribution_step, List.flatMap_assoc]
    simp only [apart]

theorem walk_undefined (segments : List String) : walk diagram undefined segments = undefined := by
  induction segments with
  | nil => rfl
  | cons segment rest ih =>
    rw [walk, List.foldl_cons, step]
    exact ih

/-- A value that is no list compares with each item of another. -/
theorem compare_of_single {right : Value} (single : ∀ items, right ≠ list items) (left : Value)
    (op : Comparator) :
    left.compare op right = .ok (left.contribution.any (compareScalar · op right)) := by
  cases left with
  | undefined =>
    cases right with
    | list items => exact absurd rfl (single items)
    | _ => simp [compare, contribution, compareScalar, isUndefined]
  | list items =>
    cases right with
    | list others => exact absurd rfl (single others)
    | _ => rfl
  | _ =>
    cases right with
    | list items => exact absurd rfl (single items)
    | _ => simp [compare, contribution]

theorem ofLiteral_ne_list (literal : Literal) (items : List Value) : ofLiteral literal ≠ list items := by
  cases literal with
  | number value =>
    simp only [ofLiteral]
    split <;> simp
  | _ => simp [ofLiteral]

end Value

/-! ## Order -/

namespace Earlier

theorem append {left right : List Nat} (earlier : Earlier left right) (more others : List Nat) :
    Earlier (left ++ more) (right ++ others) := by
  induction earlier with
  | parts less => exact .parts less
  | agrees _ ih => exact .agrees ih

theorem behind {left right : List Nat} (earlier : Earlier left right) (choices : List Nat) :
    Earlier (choices ++ left) (choices ++ right) := by
  induction choices with
  | nil => exact earlier
  | cons choice rest ih => exact .agrees ih

theorem irrefl {place : List Nat} : ¬ Earlier place place := by
  intro earlier
  induction place with
  | nil => cases earlier
  | cons i rest ih =>
    cases earlier with
    | parts less => exact Nat.lt_irrefl i less
    | agrees later => exact ih later

theorem asymm {left right : List Nat} (earlier : Earlier left right) : ¬ Earlier right left := by
  intro back
  induction earlier with
  | parts less =>
    cases back with
    | parts more => exact Nat.lt_asymm less more
    | agrees => exact Nat.lt_irrefl _ less
  | agrees later ih =>
    cases back with
    | parts less => exact Nat.lt_irrefl _ less
    | agrees back => exact ih back

end Earlier

/-- What is found at places is told by its order and by what there is. -/
theorem eq_of_earlier {β : Type} {first second : List (List Nat × β)}
    (ordered : first.Pairwise fun left right => Earlier left.1 right.1)
    (ordered' : second.Pairwise fun left right => Earlier left.1 right.1)
    (same : ∀ place content, (place, content) ∈ first ↔ (place, content) ∈ second) : first = second := by
  have distinct {entries : List (List Nat × β)}
      (ordered : entries.Pairwise fun left right => Earlier left.1 right.1) : entries.Nodup := by
    refine ordered.imp ?_
    rintro left _ earlier rfl
    exact earlier.irrefl
  have perm : first.Perm second :=
    (List.perm_ext_iff_of_nodup (distinct ordered) (distinct ordered')).mpr fun entry => same entry.1 entry.2
  exact perm.eq_of_pairwise (fun _ _ _ _ earlier back => absurd back earlier.asymm) ordered ordered'

theorem pairwise_zipIdx {α : Type} (items : List α) : items.zipIdx.Pairwise fun left right => left.2 < right.2 := by
  have increasing : (items.zipIdx.map (·.2)).Pairwise (· < ·) := by
    rw [List.zipIdx_map_snd]
    exact List.pairwise_lt_range'
  exact List.pairwise_map.mp increasing

/-! ## All choices -/

namespace Json

mutual
/-- All data inside data that one can pick, with the choices for each. -/
def allPicks : Json → List (List Nat × Json)
  | .array items => itemPicks 0 items
  | data => [([], data)]

/-- All data inside the items of an array, the first of which is at `index`. -/
def itemPicks (index : Nat) : List Json → List (List Nat × Json)
  | [] => []
  | item :: rest =>
    (allPicks item).map (fun pick => (index :: pick.1, pick.2)) ++ itemPicks (index + 1) rest
end

mutual
theorem allPicks_leaves (data : Json) : data.allPicks.map (·.2) = Value.leaves data := by
  cases data with
  | array items => rw [allPicks, Value.leaves, itemPicks_leaves]
  | _ => simp [allPicks, Value.leaves]

theorem itemPicks_leaves (index : Nat) (items : List Json) :
    (itemPicks index items).map (·.2) = Value.leavesOf items := by
  cases items with
  | nil => simp [itemPicks, Value.leavesOf]
  | cons item rest =>
    rw [itemPicks, Value.leavesOf, List.map_append, itemPicks_leaves, List.map_map]
    congr 1
    exact allPicks_leaves item
end

theorem picks_single {data : Json} (single : ∀ items, data ≠ .array items) {choices : List Nat} {leaf : Json} :
    data.Picks choices leaf ↔ choices = [] ∧ leaf = data := by
  constructor
  · intro picks
    cases picks with
    | leaf => exact ⟨rfl, rfl⟩
    | item => exact absurd rfl (single _)
  · rintro ⟨rfl, rfl⟩
    exact .leaf single

mutual
theorem mem_allPicks {data : Json} {choices : List Nat} {leaf : Json} :
    (choices, leaf) ∈ data.allPicks ↔ data.Picks choices leaf := by
  cases data with
  | array items =>
    rw [allPicks, mem_itemPicks]
    constructor
    · rintro ⟨index, item, rest, rfl, stands, inside⟩
      rw [Nat.zero_add]
      exact .item stands inside
    · intro picks
      cases picks with
      | leaf single => exact absurd rfl (single _)
      | item stands inside => exact ⟨_, _, _, by rw [Nat.zero_add], stands, inside⟩
  | _ => simp [allPicks, picks_single]

theorem mem_itemPicks {first : Nat} {items : List Json} {choices : List Nat} {leaf : Json} :
    (choices, leaf) ∈ itemPicks first items ↔ ∃ index item rest,
      choices = (first + index) :: rest ∧ items[index]? = some item ∧ item.Picks rest leaf := by
  cases items with
  | nil => simp [itemPicks]
  | cons item others =>
    rw [itemPicks, List.mem_append, mem_itemPicks]
    constructor
    · rintro (here | ⟨index, item, rest, rfl, stands, inside⟩)
      · obtain ⟨⟨rest, picked⟩, member, same⟩ := List.mem_map.mp here
        cases same
        exact ⟨0, item, rest, rfl, rfl, mem_allPicks.mp member⟩
      · exact ⟨index + 1, item, rest, by rw [Nat.add_right_comm]; rfl, stands, inside⟩
    · rintro ⟨index, item, rest, rfl, stands, inside⟩
      cases index with
      | zero =>
        cases stands
        exact .inl (List.mem_map.mpr ⟨(rest, leaf), mem_allPicks.mpr inside, rfl⟩)
      | succ index => exact .inr ⟨index, item, rest, by rw [Nat.add_right_comm]; rfl, stands, inside⟩
end

mutual
theorem pairwise_allPicks (data : Json) :
    data.allPicks.Pairwise fun left right => Earlier left.1 right.1 := by
  cases data with
  | array items => exact allPicks.eq_1 items ▸ pairwise_itemPicks 0 items
  | _ => simp [allPicks]

theorem pairwise_itemPicks (first : Nat) (items : List Json) :
    (itemPicks first items).Pairwise fun left right => Earlier left.1 right.1 := by
  cases items with
  | nil => simp [itemPicks]
  | cons item others =>
    rw [itemPicks, List.pairwise_append]
    refine ⟨?_, pairwise_itemPicks (first + 1) others, ?_⟩
    · rw [List.pairwise_map]
      exact (pairwise_allPicks item).imp .agrees
    · rintro ⟨left, leaf⟩ member ⟨right, other⟩ later
      obtain ⟨pick, -, same⟩ := List.mem_map.mp member
      obtain ⟨index, item, rest, rfl, -, -⟩ := mem_itemPicks.mp later
      cases same
      exact .parts (by omega)
end

end Json

namespace Offer

/-- All spots of an offer, with the choices for each. -/
def allPicks : Offer → List (List Nat × Spot)
  | data content => content.allPicks.map fun pick => (pick.1, .data pick.2)
  | relation (.one target) => [([], .element target)]
  | relation (.many targets) => targets.zipIdx.map fun target => ([target.2], .element target.1)
  | attached owner => [([], .attached owner)]

theorem mem_allPicks {offer : Offer} {choices : List Nat} {spot : Spot} :
    (choices, spot) ∈ offer.allPicks ↔ offer.Picks choices spot := by
  constructor
  · intro member
    match offer, member with
    | .data content, member =>
      obtain ⟨⟨choices, leaf⟩, inside, same⟩ := List.mem_map.mp member
      cases same
      exact .data (Json.mem_allPicks.mp inside)
    | .relation (.one target), member =>
      cases List.mem_singleton.mp member
      exact .one
    | .relation (.many targets), member =>
      obtain ⟨⟨target, index⟩, inside, same⟩ := List.mem_map.mp member
      cases same
      exact .many (List.mem_zipIdx_iff_getElem?.mp inside)
    | .attached owner, member =>
      cases List.mem_singleton.mp member
      exact .attached
  · intro picks
    cases picks with
    | data inside => exact List.mem_map.mpr ⟨_, Json.mem_allPicks.mpr inside, rfl⟩
    | one => exact List.mem_singleton.mpr rfl
    | many stands => exact List.mem_map.mpr ⟨(_, _), List.mem_zipIdx_iff_getElem?.mpr stands, rfl⟩
    | attached => exact List.mem_singleton.mpr rfl

theorem pairwise_allPicks (offer : Offer) :
    offer.allPicks.Pairwise fun left right => Earlier left.1 right.1 := by
  match offer with
  | .data content =>
    rw [allPicks, List.pairwise_map]
    exact content.pairwise_allPicks
  | .relation (.one target) => exact List.pairwise_singleton _ _
  | .relation (.many targets) =>
    rw [allPicks, List.pairwise_map]
    exact (pairwise_zipIdx targets).imp .parts
  | .attached owner => exact List.pairwise_singleton _ _

end Offer

namespace Element

/-- What an element offers under a name, if anything. -/
def offer? (e : Element) (name : String) : Option Offer :=
  if name = "id" then some (.data (.text e.id))
  else if name = "metadata" then some (.data e.metadata.toJson)
  else if name = "attached" then some (.attached e)
  else (e.attribute? name).map .data

theorem offer?_eq_some {e : Element} {name : String} {offer : Offer} :
    e.offer? name = some offer ↔ e.Offers name offer := by
  constructor
  · unfold offer?
    intro found
    split at found
    · cases found
      subst name
      exact .id
    split at found
    · cases found
      subst name
      exact .metadata
    split at found
    · cases found
      subst name
      exact .attached
    · obtain ⟨data, held, rfl⟩ := Option.map_eq_some_iff.mp found
      exact .free (by simp [*]) held
  · intro offers
    cases offers with
    | id => rfl
    | metadata => rfl
    | attached => rfl
    | free other found =>
      simp only [List.mem_cons, List.not_mem_nil, or_false, not_or] at other
      simp [offer?, other, found]

end Element

namespace Spot

/-- What a segment leads to from a spot, if anything. -/
def next? (diagram : Diagram) (segment : String) : Spot → Option Offer
  | data (.object fields) => (Json.field? segment fields).map .data
  | data _ => none
  | element id => (diagram.find? id).bind (·.offer? segment)
  | attached owner => (owner.relation? segment).map .relation

theorem next?_eq_some {diagram : Diagram} {segment : String} {spot : Spot} {offer : Offer} :
    spot.next? diagram segment = some offer ↔ spot.Offers diagram segment offer := by
  constructor
  · intro found
    match spot with
    | .data (.object fields) =>
      obtain ⟨data, field, rfl⟩ := Option.map_eq_some_iff.mp found
      exact .field field
    | .element id =>
      obtain ⟨e, known, offers⟩ := Option.bind_eq_some_iff.mp found
      obtain ⟨inside, rfl⟩ := Diagram.find?_eq_some.mp known
      exact .element inside (Element.offer?_eq_some.mp offers)
    | .attached owner =>
      obtain ⟨relation, known, rfl⟩ := Option.map_eq_some_iff.mp found
      exact .relation known
  · intro offers
    cases offers with
    | field found => exact Option.map_eq_some_iff.mpr ⟨_, found, rfl⟩
    | element inside offers =>
      exact Option.bind_eq_some_iff.mpr
        ⟨_, Diagram.find?_eq_some.mpr ⟨inside, rfl⟩, Element.offer?_eq_some.mpr offers⟩
    | relation found => exact Option.map_eq_some_iff.mpr ⟨_, found, rfl⟩

end Spot

namespace Offer

/-- The value of an offer, with all its spots at once. -/
def value : Offer → Value
  | data content => .ofJson content
  | relation target => .ofRelation target
  | attached owner => .relations owner.id

/-- All spots to which segments lead from an offer, with all choices for each. -/
def routes (diagram : Diagram) : List String → Offer → List (List Nat × Spot)
  | [], offer => offer.allPicks
  | segment :: segments, offer => offer.allPicks.flatMap fun pick =>
      match pick.2.next? diagram segment with
      | some next => (routes diagram segments next).map fun route => (pick.1 ++ route.1, route.2)
      | none => []

theorem mem_routes {diagram : Diagram} {segments : List String} {offer : Offer} {choices : List Nat}
    {spot : Spot} : (choices, spot) ∈ offer.routes diagram segments ↔
      offer.Reaches diagram segments choices spot := by
  induction segments generalizing offer choices with
  | nil =>
    rw [routes, mem_allPicks]
    constructor
    · exact .here
    · intro reaches
      cases reaches with
      | here picks => exact picks
  | cons segment segments ih =>
    rw [routes, List.mem_flatMap]
    constructor
    · rintro ⟨⟨picked, here⟩, member, led⟩
      cases found : here.next? diagram segment with
      | none => simp [found] at led
      | some next =>
        simp only [found, List.mem_map] at led
        obtain ⟨⟨more, last⟩, route, same⟩ := led
        cases same
        exact .further (mem_allPicks.mp member) (Spot.next?_eq_some.mp found) (ih.mp route)
    · intro reaches
      cases reaches with
      | further picks offers reaches =>
        refine ⟨(_, _), mem_allPicks.mpr picks, ?_⟩
        simp only [Spot.next?_eq_some.mpr offers, List.mem_map]
        exact ⟨(_, _), ih.mpr reaches, rfl⟩

theorem pairwise_routes (diagram : Diagram) (segments : List String) (offer : Offer) :
    (offer.routes diagram segments).Pairwise fun left right => Earlier left.1 right.1 := by
  induction segments generalizing offer with
  | nil => exact offer.pairwise_allPicks
  | cons segment segments ih =>
    rw [routes, List.pairwise_flatMap]
    constructor
    · intro pick _
      split
      · rw [List.pairwise_map]
        exact (ih _).imp fun earlier => earlier.behind pick.1
      · exact .nil
    · refine offer.pairwise_allPicks.imp ?_
      -- Routes that part at a pick stay apart, whatever is chosen afterwards.
      intro left right earlier first before second behind
      split at before
      · obtain ⟨route, -, rfl⟩ := List.mem_map.mp before
        split at behind
        · obtain ⟨other, -, rfl⟩ := List.mem_map.mp behind
          exact earlier.append route.1 other.1
        · cases behind
      · cases before

end Offer

/-! ## Evaluation takes all choices -/

/-- The value of what an element offers is that of its field. -/
theorem Element.ofField_eq (e : Element) (name : String) :
    Value.ofField e name = ((e.offer? name).map Offer.value).getD .undefined := by
  unfold Value.ofField offer?
  split
  · rfl
  split
  · rfl
  split
  · rfl
  cases e.attribute? name with
  | none => rfl
  | some data => rfl

namespace Spot

/-- The relations of an element are looked up in the diagram, which has to have it. -/
def Belongs (diagram : Diagram) : Spot → Prop
  | attached owner => owner ∈ diagram.elements
  | _ => True

theorem step_value {diagram : Diagram} {spot : Spot} (belongs : spot.Belongs diagram) (segment : String) :
    Value.step diagram segment spot.value =
      ((spot.next? diagram segment).map Offer.value).getD .undefined := by
  match spot with
  | .data (.object fields) =>
    simp only [value, Value.step, next?]
    cases Json.field? segment fields with
    | none => rfl
    | some data => rfl
  | .data .null | .data (.truth _) | .data (.int _) | .data (.double _) | .data (.text _)
  | .data (.array _) => rw [value, Value.step.eq_def]; rfl
  | .element id =>
    simp only [value, Value.step, next?]
    cases diagram.find? id with
    | none => rfl
    | some e => exact e.ofField_eq segment
  | .attached owner =>
    have known : diagram.find? owner.id = some owner := Diagram.find?_eq_some.mpr ⟨belongs, rfl⟩
    simp only [value, Value.step, next?, known, Option.bind_some]
    cases owner.relation? segment with
    | none => rfl
    | some relation => rfl

end Spot

namespace Offer

def Belongs (diagram : Diagram) : Offer → Prop
  | .attached owner => owner ∈ diagram.elements
  | _ => True

theorem belongs_of_offers {diagram : Diagram} {e : Element} (inside : e ∈ diagram.elements) {name : String}
    {offer : Offer} (offers : e.Offers name offer) : offer.Belongs diagram := by
  cases offers with
  | attached => exact inside
  | _ => trivial

theorem belongs_of_next {diagram : Diagram} {spot : Spot} {segment : String} {offer : Offer}
    (offers : spot.Offers diagram segment offer) : offer.Belongs diagram := by
  cases offers with
  | element inside offers => exact belongs_of_offers inside offers
  | _ => trivial

theorem Picks.belongs {diagram : Diagram} {offer : Offer} {choices : List Nat} {spot : Spot}
    (picks : offer.Picks choices spot) (belongs : offer.Belongs diagram) : spot.Belongs diagram := by
  cases picks with
  | attached => exact belongs
  | _ => trivial

theorem normal_value (offer : Offer) : offer.value.Normal := by
  match offer with
  | .data content => exact Value.normal_ofJson content
  | .relation target => exact Value.normal_ofRelation target
  | .attached owner => trivial

theorem contribution_value (offer : Offer) :
    offer.value.contribution = offer.allPicks.map (·.2.value) := by
  match offer with
  | .data content =>
    have leaves : (Value.ofJson content).contribution = (Value.leaves content).map .json := by
      cases content with
      | array items => rw [Value.ofJson, Value.contribution, Value.leaves]
      | _ => rfl
    rw [value, leaves, ← content.allPicks_leaves, allPicks, List.map_map, List.map_map]
    rfl
  | .relation (.one target) => rfl
  | .relation (.many targets) =>
    rw [allPicks, List.map_map, value, Value.ofRelation, Value.contribution]
    conv => lhs; rw [← List.zipIdx_map_fst 0 targets, List.map_map]
    rfl
  | .attached owner => rfl

/-- Following segments from an offer gives the values of all spots to which they lead. -/
theorem contribution_walk {diagram : Diagram} {offer : Offer} (belongs : offer.Belongs diagram)
    (segments : List String) :
    (Value.walk diagram offer.value segments).contribution =
      (offer.routes diagram segments).map (·.2.value) := by
  induction segments generalizing offer with
  | nil => exact offer.contribution_value
  | cons segment segments ih =>
    rw [Value.contribution_walk diagram offer.normal_value, contribution_value, List.flatMap_map, routes,
      List.map_flatMap]
    refine List.flatMap_congr fun pick member => ?_
    have inside : pick.2.Belongs diagram := (mem_allPicks.mp member).belongs belongs
    have stepped : Value.walk diagram pick.2.value (segment :: segments) =
        Value.walk diagram (((pick.2.next? diagram segment).map Offer.value).getD .undefined) segments := by
      rw [← Spot.step_value inside]
      rfl
    rw [stepped]
    cases found : pick.2.next? diagram segment with
    | none => exact congrArg Value.contribution (Value.walk_undefined diagram segments)
    | some next =>
      have leads := belongs_of_next (Spot.next?_eq_some.mp found)
      simp only [Option.map_some, Option.getD_some, ih leads, List.map_map]
      rfl

end Offer

namespace Context

/-- All spots that a path reaches, with all choices for each. -/
def routes (context : Context) : List String → List (List Nat × Spot)
  | [] => []
  | first :: segments =>
    match context.element.offer? first with
    | some offer => offer.routes context.diagram segments
    | none => []

variable {context : Context}

theorem mem_routes {path : List String} {choices : List Nat} {spot : Spot} :
    (choices, spot) ∈ context.routes path ↔ context.Reaches path choices spot := by
  cases path with
  | nil =>
    constructor
    · intro member
      cases member
    · intro reaches
      cases reaches
  | cons first segments =>
    rw [routes]
    constructor
    · intro member
      split at member
      · rename_i offer offered
        exact .path (Element.offer?_eq_some.mp offered) (Offer.mem_routes.mp member)
      · cases member
    · intro reaches
      cases reaches with
      | path offers reaches =>
        rw [Element.offer?_eq_some.mpr offers]
        exact Offer.mem_routes.mpr reaches

theorem pairwise_routes (path : List String) :
    (context.routes path).Pairwise fun left right => Earlier left.1 right.1 := by
  cases path with
  | nil => exact .nil
  | cons first segments =>
    rw [routes]
    split
    · exact Offer.pairwise_routes ..
    · exact .nil

/-- The values that a path has all at once are those of the spots that it reaches. -/
theorem contribution_ofPath (inside : context.element ∈ context.diagram.elements) {path : List String}
    (nonempty : path ≠ []) :
    (Value.ofPath context path).contribution = (context.routes path).map (·.2.value) := by
  cases path with
  | nil => exact absurd rfl nonempty
  | cons first segments =>
    rw [Value.ofPath, Element.ofField_eq, routes]
    cases offered : context.element.offer? first with
    | none => exact congrArg Value.contribution (Value.walk_undefined context.diagram segments)
    | some offer =>
      exact Offer.contribution_walk (Offer.belongs_of_offers inside (Element.offer?_eq_some.mp offered)) segments

/-- A value compares with what a path leads to if it compares with one of the spots that the path reaches. -/
theorem compare_ofPath (inside : context.element ∈ context.diagram.elements) {path : List String}
    (nonempty : path ≠ []) (op : Comparator) (literal : Literal) :
    ∃ holds, (Value.ofPath context path).compare op (.ofLiteral literal) = .ok holds ∧
      (holds = true ↔ ∃ choices spot, context.Reaches path choices spot ∧
        spot.value.compareScalar op (.ofLiteral literal) = true) := by
  refine ⟨_, Value.compare_of_single (Value.ofLiteral_ne_list literal) _ op, ?_⟩
  rw [contribution_ofPath inside nonempty, List.any_map, List.any_eq_true]
  constructor
  · rintro ⟨⟨choices, spot⟩, member, holds⟩
    exact ⟨choices, spot, mem_routes.mp member, holds⟩
  · rintro ⟨choices, spot, reaches, holds⟩
    exact ⟨(choices, spot), mem_routes.mpr reaches, holds⟩

end Context

/-- Comparing a path of an element of the diagram with a literal never fails, and it holds exactly if the
comparison holds for one of the spots that the path reaches. Where the path leads to a list, the list
enumerates these spots, one for each way to choose, in the order of the document. -/
theorem evaluate_path {context : Context} (inside : context.element ∈ context.diagram.elements)
    {path : List String} (nonempty : path ≠ []) (op : Comparator) (literal : Literal) :
    (∀ text, Expression.parse text .design = .ok (.comparison (.path path) op (.literal literal)) →
      ∀ scope block,
        (Scope.evaluate scope text context block = .ok true ↔ ∃ choices spot,
          context.Reaches path choices spot ∧ spot.value.compareScalar op (.ofLiteral literal) = true) ∧
        (Scope.evaluate scope text context block = .ok false ↔ ¬ ∃ choices spot,
          context.Reaches path choices spot ∧ spot.value.compareScalar op (.ofLiteral literal) = true)) ∧
    ∀ values, Value.ofPath context path = .list values → context.Enumerates path values := by
  constructor
  · intro text parsed scope block
    obtain ⟨holds, compared, reached⟩ := Context.compare_ofPath inside nonempty op literal
    have evaluated : scope.evaluate text context block = .ok holds := by
      simp only [Scope.evaluate, parsed, Operand.resolve]
      exact compared
    rw [evaluated, ← reached]
    cases holds <;> simp
  · intro values isList
    refine ⟨context.routes path, ?_, Context.pairwise_routes path, fun _ _ => Context.mem_routes⟩
    rw [← Context.contribution_ofPath inside nonempty, isList]
    rfl

/-- A zone with two entities, one of which is not drawn, and a third that has lists inside a list. -/
def sampleZone : Context :=
  let zone : Element := ⟨"z", ⟨.zone, "box", none, []⟩, [("entities", .many ["e", "gone", "f"])], []⟩
  let tagged : Element :=
    ⟨"e", ⟨.entity, "actor", none, []⟩, [], [("tags", .array [.text "a", .array [.text "b", .text "a"]])]⟩
  let plain : Element := ⟨"f", ⟨.entity, "actor", none, []⟩, [], [("tags", .text "c")]⟩
  ⟨⟨[zone, tagged, plain], by decide⟩, zone⟩

/-- The tags of all entities of the zone, one of them met twice. -/
theorem evaluate_path_tags :
    sampleZone.element ∈ sampleZone.diagram.elements ∧
      Expression.parse "$.attached.entities.tags == 'b'" .design =
        .ok (.comparison (.path ["attached", "entities", "tags"]) .eq (.literal (.text "b"))) ∧
      (∃ choices spot, sampleZone.Reaches ["attached", "entities", "tags"] choices spot ∧
        spot.value.compareScalar .eq (.ofLiteral (.text "b")) = true) ∧
      sampleZone.Enumerates ["attached", "entities", "tags"]
        ([.text "a", .text "b", .text "a", .text "c"].map Value.json) := by
  have inside : sampleZone.element ∈ sampleZone.diagram.elements := List.mem_cons_self
  have parsed : Expression.parse "$.attached.entities.tags == 'b'" .design =
      .ok (.comparison (.path ["attached", "entities", "tags"]) .eq (.literal (.text "b"))) := by
    decide +kernel
  have found := evaluate_path inside (List.cons_ne_nil "attached" ["entities", "tags"]) .eq (.text "b")
  refine ⟨inside, parsed, ?_, found.2 _ rfl⟩
  exact (found.1 _ parsed .empty ⟨1⟩).1.mp (by decide +kernel)

end ThreatModel
