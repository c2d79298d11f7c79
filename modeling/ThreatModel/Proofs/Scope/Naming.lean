import ThreatModel.Evaluation
import ThreatModel.Proofs.Expression.Parser
import ThreatModel.Proofs.Scope.Place

/-!
# Names that stand for operands

A binding stores the value that its source has, and a variable is followed from the value that is stored.
Main statement: wherever the binding is seen, the variable can be written in place of its source and the source
in place of the variable, a path going on from either in the same way, and every comparison has the same
answer, errors included.
-/

namespace ThreatModel

namespace Expression

theorem spelled_iff_parse {text : String} {left right : Operand} {op : Comparator} :
    Spelled text left (.compare op) right ↔ parse text .design = .ok (.comparison left op right) := by
  constructor
  · intro spelled
    exact spelled.parse (.comparison op)
  · intro parsed
    obtain ⟨left', sign, right', reads, forms⟩ := ofChars_iff.mp parsed
    cases forms
    exact layout_of_reads reads

/-- A text binds a name to an operand, on whichever side of the sign the name stands. -/
def Binds (text : String) (name : String) (source : Operand) : Prop :=
  Spelled text source .bind (.named name []) ∨ Spelled text (.named name []) .bind source

theorem Binds.parse {text name : String} {source : Operand} (binds : Binds text name source)
    (other : ∀ bare, source ≠ .named bare []) :
    Expression.parse text .binding = .ok (.binding name source) := by
  rcases binds with spelled | spelled
  · exact spelled.parse (.bindRight rfl other)
  · exact spelled.parse (.bindLeft rfl other)

theorem binds_of_parse {text name : String} {source : Operand}
    (parsed : Expression.parse text .binding = .ok (.binding name source)) : Binds text name source := by
  obtain ⟨left, sign, right, reads, forms⟩ := ofChars_iff.mp parsed
  cases forms with
  | bindLeft target => exact .inr (target ▸ layout_of_reads reads)
  | bindRight target => exact .inl (target ▸ layout_of_reads reads)

theorem ne_nil_of_spells {text : List Char} {path : List String} (spells : Spells text (.path path)) :
    path ≠ [] := by
  generalize shown : Operand.path path = operand at spells
  cases spells with
  | path nonempty =>
    cases shown
    exact nonempty
  | _ => cases shown

/-- A path that has a text has segments. -/
theorem Binds.path_ne_nil {text name : String} {path : List String} (binds : Binds text name (.path path)) :
    path ≠ [] := by
  rcases binds with ⟨layout, -, parts⟩ | ⟨layout, -, parts⟩
  · exact ne_nil_of_spells parts.left
  · exact ne_nil_of_spells parts.right

end Expression

namespace Value

/-- A path from the end of a path that has segments is one path. -/
theorem walk_ofPath_of_ne_nil (context : Context) {path : List String} (nonempty : path ≠ []) (more : List String) :
    walk context.diagram (ofPath context path) more = ofPath context (path ++ more) := by
  obtain ⟨first, rest, rfl⟩ := List.exists_cons_of_ne_nil nonempty
  exact List.foldl_append.symm

end Value

namespace Scope

/-- From a block inside another, or from the other itself, no binding hides what the other spelled of a name. -/
def Sees (scope : Scope) (inner block : BlockId) (name : String) : Prop :=
  ∃ between, scope.visible inner = between ++ scope.visible block ∧ ∀ frame ∈ between, frame.lookup? name = none

/-- Two operands can be written for each other, on both sides of every comparison, as seen from a block. -/
def Interchangeable (scope : Scope) (context : Context) (block : BlockId) (left right : Operand) : Prop :=
  ∀ (op : Comparator) (other : Operand) (text text' : String),
    (Expression.Spelled text left (.compare op) other ∧ Expression.Spelled text' right (.compare op) other) ∨
      (Expression.Spelled text other (.compare op) left ∧ Expression.Spelled text' other (.compare op) right) →
    scope.evaluate text context block = scope.evaluate text' context block

variable {scope : Scope} {context : Context} {block : BlockId}

/-! ## Comparisons -/

theorem evaluate_of_spelled {text : String} {left right : Operand} {op : Comparator}
    (spelled : Expression.Spelled text left (.compare op) right) :
    scope.evaluate text context block =
      (left.resolve scope context block >>= fun a =>
        right.resolve scope context block >>= fun b => a.compare op b) := by
  rw [evaluate, spelled.parse (.comparison op)]

/-- Operands that resolve alike can be written for each other. -/
theorem interchangeable_of_resolve {left right : Operand}
    (same : left.resolve scope context block = right.resolve scope context block) :
    scope.Interchangeable context block left right := by
  rintro op other text text' (⟨spelled, spelled'⟩ | ⟨spelled, spelled'⟩)
  · rw [evaluate_of_spelled spelled, evaluate_of_spelled spelled', same]
  · rw [evaluate_of_spelled spelled, evaluate_of_spelled spelled', same]

/-! ## Bindings -/

/-- What is seen from a block inside another stays the same but for the frame of the other. -/
theorem dropWhile_replace {inner between outer : List Frame} {frame frame' : Frame} {seen : BlockId}
    (number : frame'.id = frame.id)
    (split : (inner ++ frame :: outer).dropWhile (·.id ≠ seen) = between ++ frame :: outer) :
    (inner ++ frame' :: outer).dropWhile (·.id ≠ seen) = between ++ frame' :: outer := by
  induction inner with
  | nil =>
    by_cases here : frame.id = seen
    · rw [List.nil_append, List.dropWhile_cons_of_neg (by simp [here])] at split
      rw [List.self_eq_append_left.mp split, List.nil_append,
        List.dropWhile_cons_of_neg (by simp [number, here])]
    · -- Behind the frame there is no room for it.
      rw [List.nil_append, List.dropWhile_cons_of_pos (by simpa using here)] at split
      have fewer := (List.dropWhile_sublist (l := outer) fun other => decide (other.id ≠ seen)).length_le
      rw [split, List.length_append, List.length_cons] at fewer
      omega
  | cons first rest ih =>
    by_cases here : first.id = seen
    · rw [List.cons_append, List.dropWhile_cons_of_neg (by simp [here]), ← List.cons_append] at split
      rw [List.cons_append, List.dropWhile_cons_of_neg (by simp [here]), ← List.append_cancel_right split,
        List.cons_append]
    · rw [List.cons_append, List.dropWhile_cons_of_pos (by simpa using here)] at split ⊢
      exact ih split

/-- Once a name is bound in a block, it has that value from wherever the binding is seen. -/
theorem resolve_bound (active : block ∈ scope.frames.map Frame.id) (name : String) (value : Value) :
    ∃ after, scope.register name value block = .ok after ∧
      ∀ inner, scope.Sees inner block name → after.resolve name inner = .ok value := by
  obtain ⟨nearer, frame, outer, finds⟩ := exists_finds active
  refine ⟨_, finds.register name value, ?_⟩
  rintro inner ⟨between, seen, unhidden⟩
  rw [finds.visible, Scope.visible, finds.frames] at seen
  have visible := dropWhile_replace (show (frame.bind name value).id = frame.id from rfl) seen
  have found : (between ++ frame.bind name value :: outer).findSome? (·.lookup? name) = some value := by
    rw [List.findSome?_append, List.findSome?_eq_none_iff.mpr unhidden, Option.none_or]
    simp [Frame.lookup?, Frame.bind]
  rw [resolve, Scope.visible, visible]
  split
  · rename_i nothing
    simp at nothing
  · rw [found]

/-- A variable is followed from the value that its name has. -/
theorem resolve_named {name : String} {value : Value} (resolved : scope.resolve name block = .ok value)
    (more : List String) :
    (Operand.named name more).resolve scope context block = .ok (value.walk context.diagram more) := by
  rw [Operand.resolve, resolved]
  rfl

theorem bindVariable_of_binds {text name : String} {source : Operand} {value : Value}
    (binds : Expression.Binds text name source) (other : ∀ bare, source ≠ .named bare [])
    (resolved : source.resolve scope context block = .ok value) :
    scope.bindVariable text context block = scope.register name value block := by
  rw [bindVariable, binds.parse other]
  simp only [resolved]
  rfl

/-- A name that a text binds to a path stands for the path, wherever the binding is seen and however a path goes
on from it; a name that is bound to a literal stands for the literal. In a block that is open such a binding
never fails. -/
theorem interchangeable_bound (active : block ∈ scope.frames.map Frame.id) (context : Context) (name : String) :
    (∀ text path, Expression.Binds text name (.path path) →
      ∃ after, scope.bindVariable text context block = .ok after ∧
        ∀ inner, scope.Sees inner block name → ∀ more,
          after.Interchangeable context inner (.named name more) (.path (path ++ more))) ∧
    ∀ text literal, Expression.Binds text name (.literal literal) →
      ∃ after, scope.bindVariable text context block = .ok after ∧
        ∀ inner, scope.Sees inner block name →
          after.Interchangeable context inner (.named name []) (.literal literal) := by
  constructor
  · intro text path binds
    obtain ⟨after, registered, bound⟩ := resolve_bound active name (.ofPath context path)
    refine ⟨after, (bindVariable_of_binds binds (by simp) rfl).trans registered, ?_⟩
    intro inner sees more
    refine interchangeable_of_resolve ?_
    rw [resolve_named (bound inner sees), Value.walk_ofPath_of_ne_nil context binds.path_ne_nil, Operand.resolve]
  · intro text literal binds
    obtain ⟨after, registered, bound⟩ := resolve_bound active name (.ofLiteral literal)
    refine ⟨after, (bindVariable_of_binds binds (by simp) rfl).trans registered, ?_⟩
    intro inner sees
    refine interchangeable_of_resolve ?_
    rw [resolve_named (bound inner sees), Operand.resolve]
    rfl

/-- A zone with two entities that have tags. -/
def taggedZone : Context :=
  let zone : Element := ⟨"z", ⟨.zone, "box", none, []⟩, [("entities", .many ["e", "f"])], []⟩
  let entity (id tag : String) : Element := ⟨id, ⟨.entity, "actor", none, []⟩, [], [("tags", .array [.text tag])]⟩
  ⟨⟨[zone, entity "e" "a", entity "f" "b"], by decide⟩, zone⟩

/-- Two blocks; the inner one binds another name and the outer one the same name already. -/
def nestedScope : Scope := ⟨[⟨⟨2⟩, [("TAG", .json (.text "b"))]⟩, ⟨⟨1⟩, [("ALL", .undefined)]⟩], 2⟩

/-- The entities of the zone get a name in the outer block, and their tags are compared in the inner one: with a
tag, and with themselves, which is an error. -/
theorem interchangeable_bound_tags :
    ∃ after, nestedScope.bindVariable "$.attached.entities = $ALL" taggedZone ⟨1⟩ = .ok after ∧
      after.evaluate "ALL.tags == TAG" taggedZone ⟨2⟩ =
        after.evaluate "$.attached.entities.tags == TAG" taggedZone ⟨2⟩ ∧
      after.evaluate "ALL.tags == TAG" taggedZone ⟨2⟩ = .ok true ∧
      after.evaluate "$.attached.entities.tags != $ALL.tags" taggedZone ⟨2⟩ =
        after.evaluate "$.attached.entities.tags != $.attached.entities.tags" taggedZone ⟨2⟩ ∧
      after.evaluate "$.attached.entities.tags != $ALL.tags" taggedZone ⟨2⟩ = .error .bothArrays := by
  have sees : nestedScope.Sees ⟨2⟩ ⟨1⟩ "ALL" :=
    ⟨[⟨⟨2⟩, [("TAG", .json (.text "b"))]⟩], rfl, List.forall_mem_singleton.mpr rfl⟩
  have binds : Expression.Binds "$.attached.entities = $ALL" "ALL" (.path ["attached", "entities"]) :=
    Expression.binds_of_parse (by decide +kernel)
  have spelled {text : String} {left right : Operand} {op : Comparator}
      (parsed : Expression.parse text .design = .ok (.comparison left op right)) :
      Expression.Spelled text left (.compare op) right := Expression.spelled_iff_parse.mpr parsed
  have active : (⟨1⟩ : BlockId) ∈ nestedScope.frames.map Frame.id := by decide
  obtain ⟨after, bound, same⟩ := (interchangeable_bound active taggedZone "ALL").1 _ _ binds
  have left := same ⟨2⟩ sees ["tags"] .eq (.named "TAG" []) "ALL.tags == TAG"
    "$.attached.entities.tags == TAG" (.inl ⟨spelled (by decide +kernel), spelled (by decide +kernel)⟩)
  have right := same ⟨2⟩ sees ["tags"] .ne (.path ["attached", "entities", "tags"])
    "$.attached.entities.tags != $ALL.tags" "$.attached.entities.tags != $.attached.entities.tags"
    (.inr ⟨spelled (by decide +kernel), spelled (by decide +kernel)⟩)
  rw [bindVariable_of_binds binds (by simp) rfl] at bound
  cases bound
  exact ⟨_, bindVariable_of_binds binds (by simp) rfl, left, by decide +kernel, right, by decide +kernel⟩

end Scope
end ThreatModel
