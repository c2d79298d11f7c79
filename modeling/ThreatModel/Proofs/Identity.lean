import ThreatModel.Catalog
import ThreatModel.Diagram
import Mathlib.Data.List.Nodup
import Mathlib.Logic.Function.Basic

/-!
# What ids identify

The elements of a diagram have different ids, and so have the documents of a catalog and the threats that
they describe. Main statements: looking an id up finds exactly the one that has it, whether all items are looked
through or an index is kept of their places.
-/

namespace ThreatModel

/-- Where keys are different, looking one up finds exactly the item that has it. -/
theorem find?_key {key : α → String} {items : List α} (nodup : (items.map key).Nodup) {id : String}
    {item : α} : items.find? (key · = id) = some item ↔ item ∈ items ∧ key item = id := by
  constructor
  · intro found
    exact ⟨List.mem_of_find?_eq_some found, by simpa using List.find?_some found⟩
  · rintro ⟨inside, same⟩
    have known : (items.find? (key · = id)).isSome := List.find?_isSome.mpr ⟨item, inside, by simp [same]⟩
    obtain ⟨first, found⟩ := Option.isSome_iff_exists.mp known
    have sameKey : key first = key item := by
      rw [same]
      simpa using List.find?_some found
    rw [found, List.inj_on_of_nodup_map nodup (List.mem_of_find?_eq_some found) inside sameKey]

/-- The first of some items of which something is true. -/
def IsFirst {α : Type} (items : List α) (holds : α → Prop) (first : α) : Prop :=
  ∃ before after, items = before ++ first :: after ∧ holds first ∧ ∀ other ∈ before, ¬ holds other

theorem find?_eq_some_iff_isFirst {α : Type} {items : List α} {holds : α → Prop} [DecidablePred holds] {first : α} :
    items.find? (fun item => holds item) = some first ↔ IsFirst items holds first := by
  rw [List.find?_eq_some_iff_append]
  simp only [IsFirst, decide_eq_true_eq, Bool.not_eq_true', decide_eq_false_iff_not]
  constructor
  · rintro ⟨found, before, after, split, others⟩
    exact ⟨before, after, split, found, others⟩
  · rintro ⟨before, after, split, found, others⟩
    exact ⟨found, before, after, split, others⟩

theorem IsFirst.unique {α : Type} {items : List α} {holds : α → Prop} {first other : α}
    (isFirst : IsFirst items holds first) (isFirst' : IsFirst items holds other) : first = other := by
  classical
  exact Option.some.inj
    ((find?_eq_some_iff_isFirst.mpr isFirst).symm.trans (find?_eq_some_iff_isFirst.mpr isFirst'))

/-! ## Indexes -/

/-- An index gives the place of each item by its key, and nothing else. -/
def Places {α : Type} (key : α → String) (items : List α) (index : String → Option Nat) : Prop :=
  ∀ id place, index id = some place ↔ ∃ item, items[place]? = some item ∧ key item = id

namespace Places

variable {α : Type} {key : α → String} {items : List α} {index : String → Option Nat} {id : String} {item : α}

theorem nil (key : α → String) : Places key [] fun _ => none := by
  intro id place
  simp

/-- The ids that an index has are the keys of the items. -/
theorem isSome_iff (places : Places key items index) :
    (index id).isSome = true ↔ ∃ held ∈ items, key held = id := by
  rw [Option.isSome_iff_exists]
  constructor
  · rintro ⟨place, found⟩
    obtain ⟨held, stands, same⟩ := (places id place).mp found
    exact ⟨held, List.mem_of_getElem? stands, same⟩
  · rintro ⟨held, member, same⟩
    obtain ⟨place, stands⟩ := List.getElem?_of_mem member
    exact ⟨place, (places id place).mpr ⟨held, stands, same⟩⟩

theorem not_isSome_iff (places : Places key items index) :
    ¬ (index id).isSome = true ↔ ∀ held ∈ items, key held ≠ id := by
  rw [places.isSome_iff]
  push Not
  exact Iff.rfl

/-- An item whose key is free is entered behind the others. -/
theorem concat (places : Places key items index) (free : ∀ held ∈ items, key held ≠ key item) :
    Places key (items ++ [item]) (Function.update index (key item) (some items.length)) := by
  intro id place
  simp only [List.getElem?_append, List.getElem?_singleton]
  by_cases same : id = key item
  · -- No earlier place holds the key, so the new one is its only place.
    subst same
    rw [Function.update_self]
    constructor
    · rintro ⟨⟩
      exact ⟨item, by simp, rfl⟩
    · rintro ⟨held, stands, sameKey⟩
      split at stands
      · exact absurd sameKey (free held (List.mem_of_getElem? stands))
      · split at stands
        · congr 1
          omega
        · cases stands
  · rw [Function.update_of_ne same, places id place]
    refine exists_congr fun held => and_congr_left ?_
    rintro rfl
    split
    · rfl
    · have outside : items[place]? = none := by simpa using ‹¬ place < _›
      rw [outside]
      constructor
      · rintro ⟨⟩
      · intro stands
        split at stands
        · cases stands
          exact absurd rfl same
        · cases stands

/-- The places that an index gives are different, and so are the keys. -/
theorem nodup (places : Places key items index) : (items.map key).Nodup := by
  rw [List.nodup_iff_getElem?_ne_getElem?]
  intro first second before inside same
  have far : second < items.length := by simpa using inside
  have near : first < items.length := by omega
  have keys : key items[first] = key items[second] := by simpa [near, far] using same
  have place := (places _ first).mpr ⟨_, List.getElem?_eq_getElem near, keys⟩
  have other := (places _ second).mpr ⟨_, List.getElem?_eq_getElem far, rfl⟩
  cases place.symm.trans other
  omega

theorem bind_eq_some (places : Places key items index) :
    ((index id).bind fun place => items[place]?) = some item ↔ item ∈ items ∧ key item = id := by
  rw [Option.bind_eq_some_iff]
  constructor
  · rintro ⟨place, known, stands⟩
    obtain ⟨held, stands', same⟩ := (places id place).mp known
    cases stands.symm.trans stands'
    exact ⟨List.mem_of_getElem? stands, same⟩
  · rintro ⟨member, same⟩
    obtain ⟨place, stands⟩ := List.getElem?_of_mem member
    exact ⟨place, (places id place).mpr ⟨item, stands, same⟩, stands⟩

end Places

namespace Diagram

theorem find?_eq_some {diagram : Diagram} {id : String} {e : Element} :
    diagram.find? id = some e ↔ e ∈ diagram.elements ∧ e.id = id :=
  find?_key diagram.nodup

end Diagram

namespace Catalog

end Catalog
end ThreatModel
