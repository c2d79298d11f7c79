import ThreatModel.Value.Comparison

/-!
# Values in the other order

Main statement: two values compare as they do in the other order with the operator turned around, lists and what
cannot be compared included.
-/

namespace ThreatModel

/-! ## Equality -/

namespace Json

mutual
theorem same_comm (left right : Json) : left.same right = right.same left := by
  cases left with
  | array lefts =>
    cases right with
    | array rights =>
      rw [same, same]
      exact sameItems_comm lefts rights
    | _ => simp [same]
  | object lefts =>
    cases right with
    | object rights =>
      rw [same, same]
      exact sameFields_comm lefts rights
    | _ => simp [same]
  | double x => cases right <;> simp [same, Double.eqv_comm]
  | _ => cases right <;> simp [same, eq_comm]

theorem sameItems_comm (lefts rights : List Json) : sameItems lefts rights = sameItems rights lefts := by
  cases lefts with
  | nil => cases rights <;> simp [sameItems]
  | cons left lefts =>
    cases rights with
    | nil => simp [sameItems]
    | cons right rights => rw [sameItems, sameItems, same_comm left right, sameItems_comm lefts rights]

theorem sameFields_comm (lefts rights : List (String × Json)) :
    sameFields lefts rights = sameFields rights lefts := by
  cases lefts with
  | nil => cases rights <;> simp [sameFields]
  | cons field lefts =>
    obtain ⟨name, left⟩ := field
    cases rights with
    | nil => simp [sameFields]
    | cons other rights =>
      obtain ⟨name', right⟩ := other
      rw [sameFields, sameFields, same_comm left right, sameFields_comm lefts rights]
      simp only [eq_comm]
end

end Json

namespace Value

mutual
theorem same_comm (left right : Value) : left.same right = right.same left := by
  cases left with
  | list lefts =>
    cases right with
    | list rights =>
      rw [same, same]
      exact sameItems_comm lefts rights
    | _ => simp [same]
  | json data => cases right <;> simp [same, Json.same_comm]
  | _ => cases right <;> simp [same, eq_comm]

theorem sameItems_comm (lefts rights : List Value) : sameItems lefts rights = sameItems rights lefts := by
  cases lefts with
  | nil => cases rights <;> simp [sameItems]
  | cons left lefts =>
    cases rights with
    | nil => simp [sameItems]
    | cons right rights => rw [sameItems, sameItems, same_comm left right, sameItems_comm lefts rights]
end

theorem equal_comm (left right : Value) : left.equal right = right.equal left := by
  cases left with
  | json a =>
    cases right with
    | json b =>
      simp only [equal]
      cases jsonNumber? a with
      | none =>
        cases jsonNumber? b with
        | none => exact Json.same_comm a b
        | some y => exact Json.same_comm a b
      | some x =>
        cases jsonNumber? b with
        | none => exact Json.same_comm a b
        | some y => exact Double.eqv_comm x y
    | _ => exact same_comm _ _
  | _ => cases right <;> exact same_comm _ _

/-! ## Order -/

/-- Values that are not both texts are ordered as the numbers that they count as. -/
theorem order?_of_not_texts {left right : Value}
    (apart : ∀ a b, left = json (.text a) → right ≠ json (.text b)) :
    order? left right = left.number?.bind fun x => right.number?.map fun y => x.compare y := by
  unfold order?
  split
  · exact absurd rfl (apart _ _ rfl)
  · cases left.number? <;> cases right.number? <;> rfl

theorem order?_swap (left right : Value) : (order? left right).map Ordering.swap = order? right left := by
  by_cases texts : ∃ a b, left = json (.text a) ∧ right = json (.text b)
  · obtain ⟨a, b, rfl, rfl⟩ := texts
    have swapped : Ord.compare b a = (Ord.compare a b).swap := Std.OrientedOrd.eq_swap
    simp [order?, swapped]
  · rw [order?_of_not_texts fun a b first second => texts ⟨a, b, first, second⟩,
      order?_of_not_texts fun b a first second => texts ⟨a, b, second, first⟩]
    cases left.number? with
    | none => cases right.number? <;> rfl
    | some x =>
      cases right.number? with
      | none => rfl
      | some y => exact congrArg some (x.compare_swap y)

theorem accepts_swap (op : Comparator) (order : Ordering) : accepts op.swap order.swap = accepts op order := by
  cases op <;> cases order <;> rfl

theorem any_accepts_swap (left right : Value) (op : Comparator) :
    (order? right left).any (accepts op.swap) = (order? left right).any (accepts op) := by
  rw [← order?_swap left right, Option.any_map]
  exact congrArg (Option.any · _) (funext fun order => accepts_swap op order)

/-! ## Comparison -/

theorem compareScalar_swap (left right : Value) (op : Comparator) :
    compareScalar left op right = compareScalar right op.swap left := by
  unfold compareScalar
  rw [Bool.or_comm left.isUndefined]
  by_cases undefined : (right.isUndefined || left.isUndefined) = true
  · rw [if_pos undefined, if_pos undefined]
  · rw [if_neg undefined, if_neg undefined]
    cases op with
    | eq => exact equal_comm left right
    | ne => exact congrArg not (equal_comm left right)
    | _ => exact (any_accepts_swap left right _).symm

theorem compare_swap (left right : Value) (op : Comparator) :
    left.compare op right = right.compare op.swap left := by
  cases left with
  | list items =>
    cases right with
    | list others => rfl
    | _ => simp only [compare, compareScalar_swap _ _ op]
  | _ =>
    cases right with
    | list others => simp only [compare, compareScalar_swap _ _ op]
    | _ => simp only [compare, compareScalar_swap _ _ op]

end Value

end ThreatModel
