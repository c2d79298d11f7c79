import ThreatModel.Evaluation

/-!
# The values that names have

A valuation gives values to names and knows nothing of blocks. A scope gives one: each name has its
value in the innermost block that binds it. Main statement: as long as operands are resolved and bindings
made in the innermost block, this valuation is all of the scope that matters.
-/

namespace ThreatModel

/-- The values of the names that have one. -/
def Valuation := String → Option Value

namespace Valuation

/-- No name has a value. -/
def empty : Valuation := fun _ => none

/-- The values after a name was given one. -/
def set (names : Valuation) (name : String) (value : Value) : Valuation :=
  fun other => if other = name then some value else names other

end Valuation

/-- The value of an operand; none if its variable has none. -/
def Operand.value? (context : Context) (names : Valuation) : Operand → Option Value
  | path segments => some (.ofPath context segments)
  | named name segments => (names name).map fun value => value.walk context.diagram segments
  | literal value => some (.ofLiteral value)

namespace Scope

/-- The value of each name in the innermost block that binds it. -/
def valuation (scope : Scope) : Valuation := fun name => scope.frames.findSome? (·.lookup? name)

@[simp] theorem valuation_no_frames {scope : Scope} (none : scope.frames = []) :
    scope.valuation = .empty := by
  funext name
  simp [valuation, none, Valuation.empty]

/-! ## Opening and closing blocks -/

@[simp] theorem frames_enter (scope : Scope) :
    scope.enter.2.frames = ⟨scope.enter.1, []⟩ :: scope.frames := rfl

@[simp] theorem current?_enter (scope : Scope) : scope.enter.2.current? = some scope.enter.1 := rfl

@[simp] theorem valuation_enter (scope : Scope) : scope.enter.2.valuation = scope.valuation := by
  funext name
  simp [valuation, Frame.lookup?, List.findSome?_cons]

@[simp] theorem frames_leave (scope : Scope) : scope.leave.frames = scope.frames.tail := by
  unfold leave pop
  split <;> simp_all

/-! ## The innermost block -/

variable {scope : Scope} {block : BlockId}

theorem frames_of_current (current : scope.current? = some block) :
    ∃ bindings outer, scope.frames = ⟨block, bindings⟩ :: outer := by
  unfold current? at current
  cases opened : scope.frames with
  | nil => simp [opened] at current
  | cons frame outer =>
    have same : frame.id = block := by simpa [opened] using current
    exact ⟨frame.bindings, outer, by rw [← same]⟩

/-- From the innermost block a name has its value in the valuation, or is unbound. -/
theorem resolve_of_current (current : scope.current? = some block) (name : String) :
    scope.resolve name block = match scope.valuation name with
      | some value => .ok value
      | none => .error (.unboundVariable name) := by
  obtain ⟨bindings, outer, frames⟩ := frames_of_current current
  have seen : scope.visible block = scope.frames := by simp [visible, frames]
  unfold resolve
  rw [seen]
  split
  · simp_all
  · rfl

/-- A binding made in the innermost block sets its name and leaves the other blocks alone. -/
theorem register_of_current (current : scope.current? = some block) (name : String) (value : Value) :
    ∃ after, scope.register name value block = .ok after ∧ after.current? = some block ∧
      after.frames.tail = scope.frames.tail ∧ after.valuation = scope.valuation.set name value := by
  obtain ⟨bindings, outer, frames⟩ := frames_of_current current
  refine ⟨{ scope with frames := Frame.bind ⟨block, bindings⟩ name value :: outer }, ?_, ?_, ?_, ?_⟩
  · simp [register, bindIn, frames]
  · simp [current?, Frame.bind]
  · simp [frames]
  · funext other
    by_cases same : other = name
    · simp [valuation, Valuation.set, Frame.lookup?, Frame.bind, same]
    · have differ : (other == name) = false := by simp [same]
      simp [valuation, Valuation.set, Frame.lookup?, Frame.bind, List.findSome?_cons, List.lookup_cons,
        frames, same, differ]

theorem resolve_operand_iff (current : scope.current? = some block) (context : Context)
    (operand : Operand) (value : Value) :
    operand.resolve scope context block = .ok value ↔
      operand.value? context scope.valuation = some value := by
  cases operand with
  | path segments => simp [Operand.resolve, Operand.value?]
  | literal content => simp [Operand.resolve, Operand.value?]
  | named name segments =>
    simp only [Operand.resolve, Operand.value?, resolve_of_current current]
    cases scope.valuation name with
    | none => simp [bind, Except.bind]
    | some found => simp [bind, Except.bind, pure, Except.pure]

end Scope
end ThreatModel
