import Mathlib.Data.List.Perm.Subperm
import ThreatModel.Document
import ThreatModel.Proofs.Expression.Printing
import ThreatModel.Proofs.Validation.Site

/-!
# What diagnostics point to

The place of a diagnostic is written as keys with points between them and indexes in brackets. Main statement: what is
written is read as the same place, and in the document of the rule that place leads to the list or the text that has
the problem. No two parts of a condition have a place in common, and none has two errors.
-/

namespace ThreatModel

/-! ## Texts of places -/

namespace Place

/-- The characters of a key, which ends at a point or a bracket. -/
def isKeyChar (c : Char) : Bool := c ≠ '.' && c ≠ '['

/-- Reads steps: keys after points, and indexes in brackets. -/
def steps? (text : List Char) : Option Place :=
  match text with
  | [] => some []
  | '.' :: rest =>
    let key := rest.takeWhile isKeyChar
    if key.isEmpty then none else (steps? (rest.dropWhile isKeyChar)).map (.key (String.ofList key) :: ·)
  | '[' :: rest =>
    let digits := rest.takeWhile Decimal.isDigit
    match _closing : rest.dropWhile Decimal.isDigit with
    | ']' :: after =>
      if digits.isEmpty then none else (steps? after).map (.index (Decimal.value digits) :: ·)
    | _ => none
  | _ => none
  termination_by text.length
  decreasing_by
    · have := Text.length_dropWhile_le isKeyChar rest
      simp only [List.length_cons]
      omega
    · have := Text.length_dropWhile_le Decimal.isDigit rest
      simp only [_closing, List.length_cons] at this ⊢
      omega

/-- Reads the text of a place that starts with a key. -/
def ofText? (text : String) : Option Place := steps? ('.' :: text.toList)

end Place

/-- A key that can be told from the steps behind it. -/
def Step.IsPlain : Step → Prop
  | .key name => Expression.Run Place.isKeyChar name.toList
  | .index _ => True

namespace Place
open Expression (Stops takeWhile_of_stops dropWhile_of_stops)

theorem toList_key (name : String) (rest : Place) :
    (continued (.key name :: rest)).toList = '.' :: (name.toList ++ (continued rest).toList) := by
  simp [continued]

theorem toList_index (i : Nat) (rest : Place) :
    (continued (.index i :: rest)).toList = '[' :: (Decimal.digits i ++ ']' :: (continued rest).toList) := by
  simp [continued, toString, Nat.repr, Decimal.digits]

theorem stops_continued (place : Place) : Stops isKeyChar (continued place).toList := by
  intro c head
  cases place with
  | nil => cases head
  | cons step rest =>
    cases step with
    | key name =>
      rw [toList_key] at head
      cases head
      rfl
    | index i =>
      rw [toList_index] at head
      cases head
      rfl

theorem steps?_continued {place : Place} (plain : ∀ step ∈ place, step.IsPlain) :
    steps? (continued place).toList = some place := by
  induction place with
  | nil => rw [continued, String.toList_empty, steps?]
  | cons step rest ih =>
    obtain ⟨first, others⟩ := List.forall_mem_cons.mp plain
    cases step with
    | key name =>
      have taken := takeWhile_of_stops first.2 (stops_continued rest)
      have left := dropWhile_of_stops first.2 (stops_continued rest)
      rw [toList_key, steps?]
      simp [taken, left, first.1, ih others]
    | index i =>
      have run := Expression.run_digits i
      have closed : Stops Decimal.isDigit (']' :: (continued rest).toList) := by
        intro c head
        cases head
        decide
      have taken := takeWhile_of_stops run.2 closed
      have left := dropWhile_of_stops run.2 closed
      rw [toList_index, steps?]
      simp only [taken]
      split
      · rename_i after same
        rw [left] at same
        cases same
        simp [run.1, ih others, Expression.value_digits]
      · rename_i other
        exact absurd left (other _)

/-- The text of a place that starts with a key is read as the place. -/
theorem ofText?_text {name : String} {rest : Place} (plain : ∀ step ∈ Step.key name :: rest, step.IsPlain) :
    ofText? (text (.key name :: rest)) = some (.key name :: rest) := by
  rw [← steps?_continued plain, ofText?]
  simp [text, continued]

end Place

/-! ## Values at places -/

/-- The value that steps lead to. -/
def Json.at? : Json → Place → Option Json
  | value, [] => some value
  | .object fields, .key name :: rest => (field? name fields).bind (at? · rest)
  | .array items, .index i :: rest => items[i]?.bind (at? · rest)
  | _, _ => none

namespace Condition

/-- The key under which a condition stands in its table. -/
def key : Condition → String
  | list combinator _ => combinator.key
  | design _ => "design"
  | binding _ => "variable"

/-- What stands under the key: an array for a list, and a text for any other condition. -/
def content : Condition → Json
  | list _ children => .array (toJsons children)
  | design expression => .text expression
  | binding expression => .text expression

theorem toJson_eq (condition : Condition) : condition.toJson = .object [(condition.key, condition.content)] := by
  cases condition <;> rw [toJson] <;> rfl

theorem toJsons_eq_map (children : List Condition) : toJsons children = children.map toJson := by
  induction children with
  | nil => rfl
  | cons child rest ih => rw [toJsons, ih, List.map_cons]

theorem key_mem_keys (condition : Condition) : condition.key ∈ keys := by
  cases condition with
  | list combinator children => cases combinator <;> simp [key, keys, Combinator.key]
  | design expression => simp [key, keys]
  | binding expression => simp [key, keys]

theorem isPlain_key (condition : Condition) : (Step.key condition.key).IsPlain := by
  have plain : ∀ name ∈ keys, name.toList ≠ [] ∧ name.toList.all Place.isKeyChar = true := by decide
  obtain ⟨nonempty, all⟩ := plain condition.key condition.key_mem_keys
  exact ⟨nonempty, List.all_eq_true.mp all⟩

variable {place : Place} {depth : Nat} {condition : Condition} {site : Site}

/-- The place of a part leads to what stands there for it, by steps that can be told from one another. -/
theorem at?_site (member : site ∈ condition.sitesFrom place depth) :
    ∃ steps, site.place = place ++ .key condition.key :: steps ∧ (∀ step ∈ steps, step.IsPlain) ∧
      condition.content.at? steps = some site.part.content := by
  induction condition using Condition.induction generalizing place depth with
  | design expression =>
    cases List.mem_singleton.mp (by rwa [sitesFrom] at member)
    exact ⟨[], rfl, List.forall_mem_nil _, rfl⟩
  | binding expression =>
    cases List.mem_singleton.mp (by rwa [sitesFrom] at member)
    exact ⟨[], rfl, List.forall_mem_nil _, rfl⟩
  | list combinator children ih =>
    rw [sitesFrom] at member
    rcases List.mem_cons.mp member with rfl | inside
    · exact ⟨[], rfl, List.forall_mem_nil _, rfl⟩
    · obtain ⟨i, child, found, inner⟩ := mem_sitesOf.mp inside
      obtain ⟨steps, stands, plain, leads⟩ := ih child (List.mem_of_getElem? found) inner
      refine ⟨.index i :: .key child.key :: steps, ?_, ?_, ?_⟩
      · rw [stands, Nat.zero_add]
        simp [key]
      · exact List.forall_mem_cons.mpr ⟨trivial, List.forall_mem_cons.mpr ⟨child.isPlain_key, plain⟩⟩
      · show (Json.array (toJsons children)).at? _ = _
        simp only [Json.at?, toJsons_eq_map, List.getElem?_map, found, Option.map_some, Option.bind_some, toJson_eq,
          Json.field?, if_true]
        exact leads

/-- The text of the place of a part is read as the place. -/
theorem ofText?_site (member : site ∈ condition.sites) : Place.ofText? site.place.text = some site.place := by
  obtain ⟨steps, stands, plain, -⟩ := at?_site member
  rw [stands]
  exact Place.ofText?_text (List.forall_mem_cons.mpr ⟨condition.isPlain_key, plain⟩)

/-- No two parts of a condition have places with the same text. -/
theorem nodup_texts (condition : Condition) : (condition.sites.map (·.place.text)).Nodup := by
  have places := nodup_places condition [] 0
  rw [List.Nodup, List.pairwise_map] at places ⊢
  refine places.imp_of_mem ?_
  intro site other member member' apart same
  have read := ofText?_site member
  rw [same, ofText?_site member'] at read
  exact apart (Option.some.inj read).symm

end Condition

/-- In the document of a rule, too, the place of a part leads to what stands there for it. -/
theorem Rule.at?_site {rule : Rule} (listed : rule.condition.isBinding = false) {site : Condition.Site}
    (member : site ∈ rule.condition.sites) :
    (Document.rule rule).toJson.at? site.place = some site.part.content := by
  obtain ⟨steps, stands, -, leads⟩ := Condition.at?_site member
  rw [stands]
  show (Rule.toJson rule).at? _ = _
  unfold Rule.toJson
  cases shape : rule.condition with
  | binding expression =>
    rw [shape] at listed
    cases listed
  | design expression =>
    rw [shape] at leads
    exact leads
  | list combinator children =>
    rw [shape] at leads
    cases combinator <;> exact leads

namespace Validation
open Condition (sitesFrom sitesOf)

/-! ## Diagnostics -/

variable {maxDepth depth index : Nat} {place : Place} {bound : List String} {condition : Condition}
  {children : List Condition} {diagnostic : Diagnostic}

/-- A diagnostic has the place of a part that has its problem. -/
theorem exists_site (reported : diagnostic ∈ childProblems maxDepth place depth bound condition) :
    ∃ site ∈ condition.sitesFrom place depth, site.place = diagnostic.place ∧
      diagnostic.problem.IsOf site.part := by
  induction condition using Condition.induction generalizing place depth bound with
  | binding expression =>
    rw [childProblems] at reported
    cases reported
  | design expression =>
    rw [childProblems] at reported
    obtain ⟨stands, of⟩ := mem_designProblems reported
    rw [sitesFrom]
    exact ⟨_, List.mem_singleton_self _, stands.symm, of⟩
  | list combinator children ih =>
    rw [sitesFrom]
    by_cases deep : maxDepth < depth + 1
    · rw [childProblems] at reported
      simp only [if_pos deep, List.mem_singleton] at reported
      subst reported
      exact ⟨_, List.mem_cons_self, rfl, trivial⟩
    · rcases mem_listProblems deep reported with ⟨stands, -, of⟩ | bindings | conditions
      · exact ⟨_, List.mem_cons_self, stands.symm, of⟩
      · obtain ⟨i, expression, found, stands, of⟩ := mem_bindingsProblems bindings
        refine ⟨⟨diagnostic.place, depth + 1, .binding expression⟩, List.mem_cons_of_mem _ ?_, rfl, of⟩
        refine Condition.mem_sitesOf.mpr ⟨i, _, found, ?_⟩
        rw [sitesFrom, stands, List.append_assoc]
        exact List.mem_singleton_self _
      · obtain ⟨i, child, found, reported⟩ := mem_childrenProblems conditions
        obtain ⟨site, member, stands, of⟩ := ih child (List.mem_of_getElem? found) reported
        exact ⟨site, List.mem_cons_of_mem _ (Condition.mem_sitesOf.mpr ⟨i, child, found, member⟩), stands, of⟩

/-! ## Errors -/

theorem errorsIn_unboundIn (operand : Operand) : errorsIn (unboundIn bound place operand) = [] := by
  rw [errorsIn, List.filter_eq_nil_iff]
  intro diagnostic member
  obtain ⟨name, segments, -, -, rfl⟩ := mem_unboundIn member
  exact Bool.false_ne_true

theorem errorsIn_append (left right : List Diagnostic) :
    errorsIn (left ++ right) = errorsIn left ++ errorsIn right := List.filter_append left right

/-- A comparison has one error at most. -/
theorem errors_designProblems (expression : String) :
    ((errorsIn (designProblems bound place expression)).map Diagnostic.place).Sublist [place] := by
  unfold designProblems
  split
  · rw [errorsIn_append, errorsIn_unboundIn, errorsIn_unboundIn]
    exact List.nil_sublist _
  · exact List.nil_sublist _
  · exact List.Sublist.refl _

theorem errors_bindingProblems (expression : String) :
    ((errorsIn (bindingProblems bound place expression).1).map Diagnostic.place).Sublist [place] := by
  unfold bindingProblems
  split
  · rw [errorsIn_unboundIn]
    exact List.nil_sublist _
  · exact List.nil_sublist _
  · exact List.Sublist.refl _

theorem append_subperm {first second first' second' : List Place} (left : first.Subperm first')
    (right : second.Subperm second') : (first ++ second).Subperm (first' ++ second') :=
  ((List.subperm_append_right second).mpr left).trans ((List.subperm_append_left first').mpr right)

/-- The errors of the bindings and of the conditions of a list are at the places of parts of their own. -/
theorem errors_children {depth index : Nat} {bound bound' : List String} {place : Place} {children : List Condition}
    (each : ∀ child ∈ children, ∀ place,
      ((errorsIn (childProblems maxDepth place depth bound' child)).map Diagnostic.place).Subperm
        ((child.sitesFrom place depth).map Condition.Site.place)) :
    ((errorsIn (bindingsProblems place bound index children).1 ++
        errorsIn (childrenProblems maxDepth place depth bound' index children)).map Diagnostic.place).Subperm
      ((sitesOf place depth index children).map Condition.Site.place) := by
  induction children generalizing bound index with
  | nil =>
    rw [childrenProblems]
    exact List.nil_subperm
  | cons child rest ih =>
    obtain ⟨first, others⟩ := List.forall_mem_cons.mp each
    by_cases kind : child.isBinding = true
    · obtain ⟨expression, rfl⟩ := eq_binding kind
      let here := place ++ [.index index] ++ [.key "variable"]
      have own : ((errorsIn (bindingProblems bound here expression).1).map Diagnostic.place).Subperm [here] :=
        (errors_bindingProblems expression).subperm
      have later := @ih (index + 1) (bindingProblems bound here expression).2 others
      have walked : (bindingsProblems place bound index (.binding expression :: rest)).1 =
          (bindingProblems bound here expression).1 ++
            (bindingsProblems place (bindingProblems bound here expression).2 (index + 1) rest).1 := by
        simp only [here, List.append_assoc, List.singleton_append]
        rfl
      rw [walked, childrenProblems, childProblems, List.nil_append, errorsIn_append, List.append_assoc, sitesOf,
        sitesFrom]
      simp only [List.map_append] at later ⊢
      exact append_subperm own later
    · rw [Bool.not_eq_true] at kind
      have inside := first (place ++ [.index index])
      have later := @ih (index + 1) bound others
      rw [bindingsProblems_skip kind, childrenProblems, errorsIn_append, sitesOf]
      simp only [List.map_append] at later ⊢
      exact (List.perm_append_comm_assoc _ _ _).subperm.trans (append_subperm inside later)

/-- The errors of a condition are at the places of parts of their own. -/
theorem errors_childProblems (condition : Condition) {place : Place} {depth : Nat} {bound : List String} :
    ((errorsIn (childProblems maxDepth place depth bound condition)).map Diagnostic.place).Subperm
      ((condition.sitesFrom place depth).map Condition.Site.place) := by
  induction condition using Condition.induction generalizing place depth bound with
  | binding expression =>
    rw [childProblems]
    exact List.nil_subperm
  | design expression =>
    rw [childProblems, sitesFrom]
    exact (errors_designProblems expression).subperm
  | list combinator children ih =>
    rw [sitesFrom, childProblems]
    by_cases deep : maxDepth < depth + 1
    · rw [if_pos deep]
      exact List.nil_subperm
    · let here := place ++ [.key combinator.key]
      have empty : errorsIn (if children.isEmpty then [⟨here, .emptyList⟩] else []) = [] :=
        filter_emptyList rfl children
      have barren : errorsIn (barrenProblems here children) = [] := filter_barrenProblems rfl children
      have inside := @errors_children maxDepth (depth + 1) 0 bound (bindingsProblems here bound 0 children).2 here
        children fun child member place => ih child member
      simp only [if_neg deep, errorsIn_append]
      rw [empty, barren, List.nil_append, List.append_nil]
      exact inside.trans (List.sublist_cons_self _ _).subperm

/-- The diagnostics of a rule point to the parts that they are of. -/
theorem places_address {rule : Rule} (listed : rule.condition.isBinding = false) (maxDepth : Nat) :
    (∀ diagnostic ∈ conditionProblems maxDepth rule.condition, ∃ site ∈ rule.condition.sites,
      diagnostic.problem.IsOf site.part ∧ diagnostic.place.text = site.place.text ∧
      ∃ steps, Place.ofText? diagnostic.place.text = some steps ∧
        (Document.rule rule).toJson.at? steps = some site.part.content) ∧
    (rule.condition.sites.map (·.place.text)).Nodup ∧
    ((errorsIn (conditionProblems maxDepth rule.condition)).map (·.place.text)).Nodup := by
  have walked : conditionProblems maxDepth rule.condition = childProblems maxDepth [] 0 [] rule.condition := by
    cases shape : rule.condition with
    | binding expression =>
      rw [shape] at listed
      cases listed
    | design expression => rfl
    | list combinator children => rfl
  rw [walked]
  refine ⟨?_, rule.condition.nodup_texts, ?_⟩
  · intro diagnostic reported
    obtain ⟨site, member, stands, of⟩ := exists_site reported
    rw [← stands]
    exact ⟨site, member, of, rfl, site.place, Condition.ofText?_site member, Rule.at?_site listed member⟩
  · obtain ⟨places, shuffled, picked⟩ := @errors_childProblems maxDepth rule.condition [] 0 []
    have apart : ((rule.condition.sites.map Condition.Site.place).map Place.text).Nodup := by
      rw [List.map_map]
      exact rule.condition.nodup_texts
    have texts : (places.map Place.text).Nodup := apart.sublist (picked.map Place.text)
    have same := (shuffled.map Place.text).nodup_iff.mp texts
    rwa [List.map_map] at same

/-- A rule with an unreadable binding, an unreadable comparison, a list in three others, a list without conditions, an
empty list, and a comparison of names that are not bound. -/
def brokenRule : Rule :=
  ⟨"v1", "ThreatRule", ⟨"broken", "Broken", none, none, true⟩, "exposure", .process,
    .list .all [.binding "$.trust == $T", .list .any [.design "$.trust = 3", .list .all [.list .any []]],
      .list .any [.binding "T.port = $P"], .list .all [], .design "T.port == P.port"]⟩

theorem places_address_broken :
    (conditionProblems 3 brokenRule.condition).map (·.place.text) =
        ["designs[0].variable", "designs[1].either[0].design", "designs[1].either[1].designs[0].either",
          "designs[2].either[0].variable", "designs[2].either", "designs[3].designs", "designs[4].design",
          "designs[4].design"] ∧
      brokenRule.condition.isBinding = false ∧
      (∀ diagnostic ∈ conditionProblems 3 brokenRule.condition, ∃ site ∈ brokenRule.condition.sites,
        diagnostic.problem.IsOf site.part ∧ diagnostic.place.text = site.place.text ∧
        ∃ steps, Place.ofText? diagnostic.place.text = some steps ∧
          (Document.rule brokenRule).toJson.at? steps = some site.part.content) ∧
      (brokenRule.condition.sites.map (·.place.text)).Nodup ∧
      ((errorsIn (conditionProblems 3 brokenRule.condition)).map (·.place.text)).Nodup := by
  have addressed := @places_address brokenRule rfl 3
  exact ⟨by decide +kernel, by decide, addressed⟩

end Validation
end ThreatModel
