import ThreatModel.Scope
import Mathlib.Data.List.TakeWhile

/-!
# Where a block stands

A number finds the innermost block that has it. Main statements: binding a name in a block changes that block
and no other, and a block that is not open can neither be bound in nor looked up from.
-/

namespace ThreatModel.Scope

/-- A number finds a block in the stack: its frame, the frames inside it and those around it. -/
structure Finds (scope : Scope) (block : BlockId) (inner : List Frame) (frame : Frame) (outer : List Frame) :
    Prop where
  frames : scope.frames = inner ++ frame :: outer
  number : frame.id = block
  innermost : ∀ other ∈ inner, other.id ≠ block

variable {scope : Scope} {block : BlockId} {inner outer : List Frame} {frame : Frame}

/-- The number of a block that is open finds one. -/
theorem exists_finds (active : block ∈ scope.frames.map Frame.id) :
    ∃ inner frame outer, scope.Finds block inner frame outer := by
  obtain ⟨other, member, same⟩ := List.mem_map.mp active
  have known : (scope.frames.find? (·.id = block)).isSome := List.find?_isSome.mpr ⟨other, member, by simp [same]⟩
  obtain ⟨frame, found⟩ := Option.isSome_iff_exists.mp known
  obtain ⟨number, inner, outer, split, innermost⟩ := List.find?_eq_some_iff_append.mp found
  exact ⟨inner, frame, outer, split, by simpa using number, by simpa using innermost⟩

theorem Finds.visible (finds : scope.Finds block inner frame outer) : scope.visible block = frame :: outer := by
  rw [Scope.visible, finds.frames, List.dropWhile_append_of_pos (by simpa using finds.innermost)]
  simp [finds.number]

theorem bindIn_append (name : String) (value : Value) (innermost : ∀ other ∈ inner, other.id ≠ block)
    (number : frame.id = block) :
    bindIn name value block (inner ++ frame :: outer) = some (inner ++ frame.bind name value :: outer) := by
  induction inner with
  | nil => simp [bindIn, number]
  | cons other rest ih =>
    obtain ⟨differs, others⟩ := List.forall_mem_cons.mp innermost
    rw [List.cons_append, bindIn, if_neg differs, ih others]
    rfl

/-- A binding is made in the block that the number finds, and nowhere else. -/
theorem Finds.register (finds : scope.Finds block inner frame outer) (name : String) (value : Value) :
    scope.register name value block =
      .ok { scope with frames := inner ++ frame.bind name value :: outer } := by
  rw [Scope.register, finds.frames, bindIn_append name value finds.innermost finds.number]

/-! ## Blocks that are not open -/

theorem visible_eq_nil : scope.visible block = [] ↔ block ∉ scope.frames.map Frame.id := by
  simp [Scope.visible, List.dropWhile_eq_nil_iff]

theorem bindIn_of_not_mem (name : String) (value : Value) {frames : List Frame}
    (inactive : block ∉ frames.map Frame.id) : bindIn name value block frames = none := by
  induction frames with
  | nil => rfl
  | cons other rest ih =>
    rw [List.map_cons, List.mem_cons, not_or] at inactive
    rw [bindIn, if_neg (Ne.symm inactive.1), ih inactive.2, Option.map_none]

theorem resolve_of_not_mem (inactive : block ∉ scope.frames.map Frame.id) (name : String) :
    scope.resolve name block = .error (.unknownBlock block) := by
  rw [resolve, visible_eq_nil.mpr inactive]

theorem register_of_not_mem (inactive : block ∉ scope.frames.map Frame.id) (name : String) (value : Value) :
    scope.register name value block = .error (.unknownBlock block) := by
  rw [Scope.register, bindIn_of_not_mem name value inactive]

end ThreatModel.Scope
