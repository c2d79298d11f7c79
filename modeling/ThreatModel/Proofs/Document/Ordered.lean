import ThreatModel.Proofs.Document.Fields
import Mathlib.Data.List.Perm.Basic

/-!
# Objects in the order of names

An object whose fields are in the order of their names, one of each name, is told by what it holds under each name.
Main statements: two such objects that hold the same are the same, sorting leads to such an object, and a value made
of such objects that reads as free data is what it reads as.
-/

namespace ThreatModel.Json

/-! ## Order -/

mutual
/-- Every object of a value has its fields in the order of their names, one of each name. -/
def Ordered : Json → Prop
  | array items => ItemsOrdered items
  | object fields => fields.Pairwise (·.1 < ·.1) ∧ FieldsOrdered fields
  | _ => True

def ItemsOrdered : List Json → Prop
  | [] => True
  | item :: rest => Ordered item ∧ ItemsOrdered rest

def FieldsOrdered : List (String × Json) → Prop
  | [] => True
  | (_, value) :: rest => Ordered value ∧ FieldsOrdered rest
end

variable {name : String} {value : Json} {fields others : List (String × Json)}

theorem fieldsOrdered_iff : FieldsOrdered fields ↔ ∀ field ∈ fields, field.2.Ordered := by
  induction fields with
  | nil => simp [FieldsOrdered]
  | cons field rest ih => rw [FieldsOrdered, ih, List.forall_mem_cons]

theorem nodup_of_pairwise (ordered : fields.Pairwise (·.1 < ·.1)) : (fields.map Prod.fst).Nodup := by
  refine List.pairwise_map.mpr (ordered.imp ?_)
  rintro ⟨left, _⟩ ⟨right, _⟩ less rfl
  exact String.lt_irrefl left less

/-! ## What is held under a name -/

theorem mem_of_field? (found : field? name fields = some value) : (name, value) ∈ fields := by
  fun_induction field? name fields with
  | case1 => cases found
  | case2 =>
    cases found
    exact List.mem_cons_self
  | case3 key other rest differs ih => exact List.mem_cons_of_mem _ (ih found)

theorem field?_eq_none : field? name fields = none ↔ name ∉ fields.map Prod.fst := by
  fun_induction field? name fields with
  | case1 => simp
  | case2 => simp
  | case3 key other rest differs ih => simp [ih, Ne.symm differs]

theorem field?_eq_some (nodup : (fields.map Prod.fst).Nodup) :
    field? name fields = some value ↔ (name, value) ∈ fields := by
  refine ⟨mem_of_field?, fun member => ?_⟩
  obtain ⟨other, found⟩ : ∃ other, field? name fields = some other := by
    refine Option.ne_none_iff_exists'.mp fun none => ?_
    exact field?_eq_none.mp none (List.mem_map_of_mem member)
  cases List.inj_on_of_nodup_map nodup member (mem_of_field? found) rfl
  exact found

theorem field?_append : field? name (fields ++ others) = (field? name fields).or (field? name others) := by
  fun_induction field? name fields with
  | case1 => rfl
  | case2 => simp [field?]
  | case3 key other rest differs ih => rw [List.cons_append, field?, if_neg differs, ih]

theorem field?_map (change : String → Json → Json) :
    field? name (fields.map fun field => (field.1, change field.1 field.2)) =
      (field? name fields).map (change name) := by
  induction fields with
  | nil => rfl
  | cons field rest ih =>
    rw [List.map_cons, field?, field?]
    split
    · rename_i same
      rw [same, Option.map_some]
    · exact ih

theorem field?_filter (nodup : (fields.map Prod.fst).Nodup) (keep : String × Json → Bool) :
    field? name (fields.filter keep) = (field? name fields).filter fun value => keep (name, value) := by
  induction fields with
  | nil => rfl
  | cons field rest ih =>
    obtain ⟨fresh, nodup⟩ := List.nodup_cons.mp nodup
    rw [List.filter_cons]
    by_cases same : field.1 = name
    · have absent : field? name (rest.filter keep) = none := by
        rw [ih nodup, field?_eq_none.mpr (same ▸ fresh), Option.filter_none]
      rw [field?, if_pos same, Option.filter_some, ← same]
      split
      · rw [field?, if_pos rfl]
      · rw [same, absent]
    · rw [field?, if_neg same, ← ih nodup]
      split
      · rw [field?, if_neg same]
      · rfl

theorem field?_insertField (other : String) :
    field? other (insertField name value fields) = if name = other then some value else field? other fields := by
  fun_induction insertField name value fields with
  | case1 =>
    rw [field?]
    rfl
  | case2 key old rest before => rw [field?]
  | case3 old rest =>
    rw [field?, field?]
    split
    · rfl
    · rfl
  | case4 key old rest notBefore apart ih =>
    rw [field?, field?, ih]
    split
    · rename_i same
      rw [if_neg (same ▸ apart)]
    · rfl

/-- An object that is in order is told by what it holds under each name. -/
theorem eq_of_field? (ordered : fields.Pairwise (·.1 < ·.1)) (ordered' : others.Pairwise (·.1 < ·.1))
    (same : ∀ name, field? name fields = field? name others) : fields = others := by
  have nodup := nodup_of_pairwise ordered
  have nodup' := nodup_of_pairwise ordered'
  have perm : fields.Perm others := by
    refine (List.perm_ext_iff_of_nodup nodup.of_map nodup'.of_map).mpr fun field => ?_
    rw [← field?_eq_some nodup, ← field?_eq_some nodup', same]
  exact perm.eq_of_pairwise (fun _ _ _ _ less more => absurd more (String.lt_asymm less)) ordered ordered'

/-! ## Sorting -/

theorem mem_insertField {field : String × Json} (member : field ∈ insertField name value fields) :
    field = (name, value) ∨ field ∈ fields := by
  fun_induction insertField name value fields with
  | case1 => exact .inl (List.mem_singleton.mp member)
  | case2 key old rest before => exact List.mem_cons.mp member
  | case3 old rest => exact (List.mem_cons.mp member).imp_right (List.mem_cons_of_mem _)
  | case4 key old rest notBefore apart ih =>
    rcases List.mem_cons.mp member with rfl | inside
    · exact .inr List.mem_cons_self
    · exact (ih inside).imp_right (List.mem_cons_of_mem _)

theorem pairwise_insertField (ordered : fields.Pairwise (·.1 < ·.1)) :
    (insertField name value fields).Pairwise (·.1 < ·.1) := by
  fun_induction insertField name value fields with
  | case1 => exact List.pairwise_singleton _ _
  | case2 key old rest before =>
    refine .cons ?_ ordered
    intro field member
    rcases List.mem_cons.mp member with rfl | inside
    · exact before
    · exact String.lt_trans before (List.rel_of_pairwise_cons ordered inside)
  | case3 old rest => exact .cons (fun field inside => List.rel_of_pairwise_cons ordered inside) ordered.of_cons
  | case4 key old rest notBefore apart ih =>
    refine .cons ?_ (ih ordered.of_cons)
    intro field member
    rcases mem_insertField member with rfl | inside
    · exact Std.lt_of_le_of_ne (String.not_lt.mp notBefore) (Ne.symm apart)
    · exact List.rel_of_pairwise_cons ordered inside

theorem pairwise_sortFields (fields : List (String × Json)) : (sortFields fields).Pairwise (·.1 < ·.1) :=
  List.foldlRecOn fields _ .nil fun _ ordered _ _ => pairwise_insertField ordered

/-- Fields that are put in one after the other hold what they held, and the others what was there before. -/
theorem field?_foldl (nodup : (fields.map Prod.fst).Nodup) (sorted : List (String × Json)) :
    field? name (fields.foldl (fun sorted (name, value) => insertField name value sorted) sorted) =
      (field? name fields).or (field? name sorted) := by
  induction fields generalizing sorted with
  | nil => rfl
  | cons field rest ih =>
    obtain ⟨fresh, nodup⟩ := List.nodup_cons.mp nodup
    rw [List.foldl_cons, ih nodup, field?_insertField, field?]
    split
    · rename_i same
      rw [field?_eq_none.mpr (same ▸ fresh), Option.none_or, Option.some_or]
    · rfl

/-- Sorting keeps what is held under each name if no name comes twice. -/
theorem field?_sortFields (nodup : (fields.map Prod.fst).Nodup) :
    field? name (sortFields fields) = field? name fields := by
  rw [sortFields, field?_foldl nodup, field?, Option.or_none]

theorem sortFields_eq (ordered : fields.Pairwise (·.1 < ·.1)) : sortFields fields = fields :=
  eq_of_field? (pairwise_sortFields fields) ordered fun _ => field?_sortFields (nodup_of_pairwise ordered)

/-- Fields that hold the same under each name are sorted to an object that is in order. -/
theorem ofFields_eq (nodup : (fields.map Prod.fst).Nodup) (ordered : others.Pairwise (·.1 < ·.1))
    (same : ∀ name, field? name fields = field? name others) : ofFields fields = object others :=
  congrArg object (eq_of_field? (pairwise_sortFields fields) ordered fun name =>
    (field?_sortFields nodup).trans (same name))

/-! ## Free data -/

mutual
/-- What reads as free data reads as it is. -/
theorem eq_of_ofNode {value found : Json} {depth : Option Nat} (ordered : value.Ordered)
    (read : ofNode depth value.toNode = .ok found) : found = value := by
  cases value with
  | array items =>
    obtain ⟨left, _, read⟩ := Except.bind_eq_ok.mp read
    obtain ⟨founds, inside, made⟩ := Except.bind_eq_ok.mp read
    cases made
    rw [eq_of_ofNodes ordered inside]
  | object fields =>
    obtain ⟨left, _, read⟩ := Except.bind_eq_ok.mp read
    obtain ⟨founds, inside, made⟩ := Except.bind_eq_ok.mp read
    cases made
    rw [eq_of_ofEntries ordered.2 inside, ofFields, sortFields_eq ordered.1]
  | _ =>
    cases read
    rfl

theorem eq_of_ofNodes {items founds : List Json} {depth : Option Nat} (ordered : ItemsOrdered items)
    (read : ofNodes depth (itemNodes items) = .ok founds) : founds = items := by
  cases items with
  | nil =>
    cases read
    rfl
  | cons item rest =>
    obtain ⟨found, first, read⟩ := Except.bind_eq_ok.mp read
    obtain ⟨founds, others, made⟩ := Except.bind_eq_ok.mp read
    cases made
    rw [eq_of_ofNode ordered.1 first, eq_of_ofNodes ordered.2 others]

theorem eq_of_ofEntries {fields founds : List (String × Json)} {depth : Option Nat} (ordered : FieldsOrdered fields)
    (read : ofEntries depth (fieldNodes fields) = .ok founds) : founds = fields := by
  cases fields with
  | nil =>
    cases read
    rfl
  | cons field rest =>
    obtain ⟨name, named, read⟩ := Except.bind_eq_ok.mp read
    obtain ⟨found, first, read⟩ := Except.bind_eq_ok.mp read
    obtain ⟨founds, others, made⟩ := Except.bind_eq_ok.mp read
    cases named
    cases made
    rw [eq_of_ofNode ordered.1 first, eq_of_ofEntries ordered.2 others]
end

end ThreatModel.Json
