import ThreatModel.Proofs.Except
import ThreatModel.Proofs.Identity
import Mathlib.Data.List.Perm.Basic

/-!
# Building a diagram with an index

The places of the elements are entered into an index by their ids, one after the other, and the first id that the index
has already ends it. Main statement: a diagram is built exactly if the ids are different, and otherwise the first
repeated id is named; the index finds what looking through the elements finds; and the categories divide the elements.
-/

namespace ThreatModel.Diagram

variable {elements front rest : List Element} {element other : Element} {index after : String → Option Nat}
  {place : Nat} {id : String}

/-! ## The first repeated id -/

/-- An element has the id of one before it, and no two of those before it have the same id. -/
def FirstRepeated (elements : List Element) (element : Element) : Prop :=
  ∃ before after, elements = before ++ element :: after ∧ (∃ earlier ∈ before, earlier.id = element.id) ∧
    (before.map Element.id).Nodup

theorem not_nodup_of_repeats (repeats : ∃ earlier ∈ front, earlier.id = element.id) :
    ¬ ((front ++ element :: rest).map Element.id).Nodup := by
  obtain ⟨earlier, member, same⟩ := repeats
  intro nodup
  rw [List.map_append, List.map_cons, List.nodup_append] at nodup
  exact nodup.2.2 _ (List.mem_map_of_mem member) _ List.mem_cons_self same

theorem FirstRepeated.not_nodup (repeated : FirstRepeated elements element) : ¬ (elements.map Element.id).Nodup := by
  obtain ⟨before, after, rfl, repeats, -⟩ := repeated
  exact not_nodup_of_repeats repeats

-- Were one further on, the other would repeat an id among the elements in front of it.
theorem FirstRepeated.unique (one : FirstRepeated elements element) (two : FirstRepeated elements other) :
    element = other := by
  obtain ⟨before, after, rfl, repeats, nodup⟩ := one
  obtain ⟨before', after', split, repeats', nodup'⟩ := two
  rcases List.append_eq_append_iff.mp split with ⟨between, rfl, cut⟩ | ⟨between, rfl, cut⟩
  · cases between with
    | nil =>
      cases cut
      rfl
    | cons first between =>
      cases cut
      exact absurd nodup' (not_nodup_of_repeats repeats)
  · cases between with
    | nil =>
      cases cut
      rfl
    | cons first between =>
      cases cut
      exact absurd nodup (not_nodup_of_repeats repeats')

/-! ## The index -/

/-- Enters the places of elements, from a place on, up to the first whose id the index has. -/
def enter (index : String → Option Nat) (place : Nat) : List Element → Except String (String → Option Nat)
  | [] => .ok index
  | element :: rest =>
    if (index element.id).isSome then .error element.id
    else enter (Function.update index element.id (some place)) (place + 1) rest

/-- Elements in order, and for each id the place of its element. -/
structure Indexed where
  elements : List Element
  index : String → Option Nat

/-- Some elements and the index that is made of them in one pass, or the id that ended it. -/
def Indexed.ofElements (elements : List Element) : Except String Indexed :=
  (enter (fun _ => none) 0 elements).map fun index => ⟨elements, index⟩

/-- The element of an id, at the place that the index gives. -/
def Indexed.find? (store : Indexed) (id : String) : Option Element :=
  (store.index id).bind fun place => store.elements[place]?

/-- The places behind those that an index has are entered. -/
theorem enter_places (places : Places Element.id front index) (entered : enter index front.length rest = .ok after) :
    Places Element.id (front ++ rest) after := by
  induction rest generalizing front index with
  | nil =>
    cases entered
    exact (List.append_nil front).symm ▸ places
  | cons element rest ih =>
    rw [enter] at entered
    split at entered
    · cases entered
    · rename_i unknown
      have next := places.concat (places.not_isSome_iff.mp unknown)
      rw [List.append_cons]
      refine ih next ?_
      rwa [List.length_append, List.length_singleton]

/-- What ends the pass is the first repeated id. -/
theorem enter_error (places : Places Element.id front index) (failed : enter index front.length rest = .error id) :
    ∃ element, FirstRepeated (front ++ rest) element ∧ element.id = id := by
  induction rest generalizing front index with
  | nil => cases failed
  | cons element rest ih =>
    rw [enter] at failed
    split at failed
    · rename_i known
      cases failed
      exact ⟨element, ⟨front, rest, rfl, places.isSome_iff.mp known, places.nodup⟩, rfl⟩
    · rename_i unknown
      have next := places.concat (places.not_isSome_iff.mp unknown)
      rw [List.append_cons]
      refine ih next ?_
      rwa [List.length_append, List.length_singleton]

/-- Looking back over the ids, as a diagram is built, ends where the index does. -/
theorem enter_eq_error_iff {seen : List String} (known : ∀ id, (index id).isSome = true ↔ id ∈ seen) :
    enter index place rest = .error id ↔ duplicate? seen (rest.map Element.id) = some id := by
  induction rest generalizing index place seen with
  | nil => simp [enter, duplicate?]
  | cons element rest ih =>
    rw [enter, List.map_cons, duplicate?]
    by_cases repeated : element.id ∈ seen
    · rw [if_pos ((known _).mpr repeated), if_pos repeated, Except.error.injEq, Option.some.injEq]
    · rw [if_neg (mt (known _).mp repeated), if_neg repeated]
      refine ih fun other => ?_
      by_cases same : other = element.id
      · simp [same]
      · simp [same, known]

theorem Indexed.ofElements_eq_error :
    Indexed.ofElements elements = .error id ↔ duplicate? [] (elements.map Element.id) = some id := by
  rw [Indexed.ofElements, Except.map_eq_error]
  exact enter_eq_error_iff (by simp)

/-- The index is complete when the pass comes to the end. -/
theorem Indexed.ofElements_eq_ok {store : Indexed} (built : Indexed.ofElements elements = .ok store) :
    store.elements = elements ∧ Places Element.id elements store.index := by
  obtain ⟨index, entered, rfl⟩ := Except.map_eq_ok.mp built
  exact ⟨rfl, enter_places (Places.nil Element.id) entered⟩

/-- The pass ends early exactly at the first repeated id. -/
theorem Indexed.ofElements_eq_error_iff :
    Indexed.ofElements elements = .error id ↔ ∃ element, FirstRepeated elements element ∧ element.id = id := by
  constructor
  · intro failed
    exact enter_error (Places.nil Element.id) (Except.map_eq_error.mp failed)
  · rintro ⟨element, repeated, rfl⟩
    cases built : Indexed.ofElements elements with
    | error other =>
      obtain ⟨found, first, rfl⟩ := enter_error (Places.nil Element.id) (Except.map_eq_error.mp built)
      rw [repeated.unique first]
    | ok store => exact absurd (Indexed.ofElements_eq_ok built).2.nodup repeated.not_nodup

/-- The element at the place of an id is the one that has the id. -/
theorem Indexed.find?_eq_some {store : Indexed} (built : Indexed.ofElements elements = .ok store) :
    store.find? id = some element ↔ element ∈ elements ∧ element.id = id := by
  obtain ⟨rfl, places⟩ := Indexed.ofElements_eq_ok built
  exact places.bind_eq_some

/-! ## The diagram -/

theorem ofElements_eq_error :
    ofElements elements = .error id ↔ duplicate? [] (elements.map Element.id) = some id := by
  unfold ofElements
  split
  · rename_i other repeated
    rw [repeated, Except.error.injEq, Option.some.injEq]
  · rename_i different
    simp [different]

theorem ofElements_eq_ok {diagram : Diagram} : ofElements elements = .ok diagram ↔ diagram.elements = elements := by
  unfold ofElements
  split
  · rename_i other repeated
    refine iff_of_false (by simp) ?_
    rintro rfl
    have different := (duplicate?_eq_none_iff [] _).mpr ⟨diagram.nodup, by simp⟩
    exact nomatch repeated.symm.trans different
  · rw [Except.ok.injEq]
    constructor
    · rintro rfl
      rfl
    · rintro rfl
      rfl

theorem ofElements_eq_error_iff :
    ofElements elements = .error id ↔ ∃ element, FirstRepeated elements element ∧ element.id = id := by
  rw [ofElements_eq_error, ← Indexed.ofElements_eq_error, Indexed.ofElements_eq_error_iff]

/-! ## The categories -/

/-- Items, divided by what they are, are the same items in another order. -/
theorem perm_flatMap_filter {α κ : Type} [DecidableEq κ] {kind : α → κ} {kinds : List κ} (different : kinds.Nodup)
    (items : List α) : (kinds.flatMap fun one => items.filter (kind · = one)).Perm (items.filter (kind · ∈ kinds)) := by
  induction kinds with
  | nil => simp
  | cons one rest ih =>
    obtain ⟨apart, different⟩ := List.nodup_cons.mp different
    have these : (items.filter (kind · ∈ one :: rest)).filter (kind · = one) = items.filter (kind · = one) := by
      rw [List.filter_filter]
      refine List.filter_congr fun item _ => ?_
      by_cases same : kind item = one <;> simp [same]
    have others : (items.filter (kind · ∈ one :: rest)).filter (fun item => !decide (kind item = one)) =
        items.filter (kind · ∈ rest) := by
      rw [List.filter_filter]
      refine List.filter_congr fun item _ => ?_
      by_cases same : kind item = one
      · simp [same, apart]
      · simp [same]
    rw [List.flatMap_cons]
    have divided := List.filter_append_perm (kind · = one) (items.filter (kind · ∈ one :: rest))
    rw [these, others] at divided
    exact ((ih different).append_left _).trans divided

theorem ofCategory_perm (diagram : Diagram) : (Category.all.flatMap diagram.ofCategory).Perm diagram.elements := by
  have divided : (Category.all.flatMap diagram.ofCategory).Perm
      (diagram.elements.filter (·.category ∈ Category.all)) :=
    perm_flatMap_filter (by decide) diagram.elements
  rwa [List.filter_eq_self.mpr fun element _ => decide_eq_true (Category.mem_all _)] at divided

theorem mem_ofCategory {diagram : Diagram} {category : Category} :
    element ∈ diagram.ofCategory category ↔ element ∈ diagram.elements ∧ element.category = category := by
  simp [ofCategory]

/-! ## Both together -/

/-- What a diagram of some elements, and the same elements with their index, give. -/
structure Holds (elements : List Element) (diagram : Diagram) (store : Indexed) : Prop where
  inOrder : diagram.elements = elements ∧ store.elements = elements
  places : Places Element.id elements store.index
  found : ∀ id element, diagram.find? id = some element ↔ element ∈ elements ∧ element.id = id
  missing : ∀ id, diagram.find? id = none ↔ ∀ element ∈ elements, element.id ≠ id
  atPlace : ∀ id, store.find? id = diagram.find? id
  category : ∀ category element,
    element ∈ diagram.ofCategory category ↔ element ∈ elements ∧ element.category = category
  categoryInOrder : ∀ category, (diagram.ofCategory category).Sublist elements
  /-- The categories have every element, each as often as the diagram has it. -/
  divided : (Category.all.flatMap diagram.ofCategory).Perm elements
  once : (Category.all.flatMap diagram.ofCategory).Nodup

theorem holds_of_ofElements {diagram : Diagram} {store : Indexed} (made : ofElements elements = .ok diagram)
    (built : Indexed.ofElements elements = .ok store) : Holds elements diagram store := by
  obtain rfl := ofElements_eq_ok.mp made
  have ⟨same, places⟩ := Indexed.ofElements_eq_ok built
  have divided := diagram.ofCategory_perm
  exact {
    inOrder := ⟨rfl, same⟩
    places := places
    found := fun id element => find?_eq_some
    missing := fun id => by simp [find?]
    atPlace := fun id => Option.ext fun element => (Indexed.find?_eq_some built).trans find?_eq_some.symm
    category := fun category element => mem_ofCategory
    categoryInOrder := fun category => List.filter_sublist
    divided := divided
    once := divided.nodup_iff.mpr (List.Nodup.of_map _ diagram.nodup) }

/-- A diagram is built exactly of elements with different ids, and the first repeated id is named otherwise; the
elements stay in order, the index finds each id, and each element is in its category only. -/
theorem ofElements_indexed (elements : List Element) :
    ((∃ diagram, ofElements elements = .ok diagram) ↔ (elements.map Element.id).Nodup) ∧
    (∀ id, ofElements elements = .error id ↔ ∃ element, FirstRepeated elements element ∧ element.id = id) ∧
    (∀ id, Indexed.ofElements elements = .error id ↔ ofElements elements = .error id) ∧
    ∀ diagram, ofElements elements = .ok diagram ↔
      ∃ store, Indexed.ofElements elements = .ok store ∧ Holds elements diagram store := by
  have errors : ∀ id, Indexed.ofElements elements = .error id ↔ ofElements elements = .error id := fun id =>
    Indexed.ofElements_eq_error.trans ofElements_eq_error.symm
  refine ⟨⟨?_, ?_⟩, fun id => ofElements_eq_error_iff, errors, fun diagram => ⟨?_, ?_⟩⟩
  · rintro ⟨diagram, made⟩
    rw [← ofElements_eq_ok.mp made]
    exact diagram.nodup
  · intro nodup
    exact ⟨⟨elements, nodup⟩, ofElements_eq_ok.mpr rfl⟩
  · intro made
    cases built : Indexed.ofElements elements with
    | error id => cases made.symm.trans ((errors id).mp built)
    | ok store => exact ⟨store, rfl, holds_of_ofElements made built⟩
  · rintro ⟨store, -, holds⟩
    exact ofElements_eq_ok.mpr holds.inOrder.1

end ThreatModel.Diagram
