import ThreatModel.Value.Comparison

/-!
# Scopes

Bindings live in blocks, and blocks in a stack. A name is looked up from a block outward, so that inner
bindings hide outer ones. Blocks are known by numbers that are never given twice.
-/

namespace ThreatModel

/-- A block of bindings, the latest first. -/
structure Frame where
  id : BlockId
  bindings : List (String × Value)

/-- The blocks that are open, the innermost first, and how many numbers were given. -/
structure Scope where
  frames : List Frame
  allocated : Nat

namespace Frame

/-- The value of a name in the block itself. -/
def lookup? (frame : Frame) (name : String) : Option Value := frame.bindings.lookup name

/-- The block with a binding added. -/
def bind (frame : Frame) (name : String) (value : Value) : Frame :=
  { frame with bindings := (name, value) :: frame.bindings }

end Frame

namespace Scope

/-- No open blocks and no numbers given. -/
def empty : Scope := ⟨[], 0⟩

/-- Gives a number for a block that is to be opened. -/
def allocate (scope : Scope) : BlockId × Scope :=
  (⟨scope.allocated + 1⟩, { scope with allocated := scope.allocated + 1 })

/-- Opens a block inside those that are open. -/
def push (scope : Scope) (id : BlockId) : Scope :=
  { scope with frames := ⟨id, []⟩ :: scope.frames }

/-- Closes the innermost block, if there is one. -/
def pop (scope : Scope) : Option BlockId × Scope :=
  match scope.frames with
  | [] => (none, scope)
  | frame :: rest => (some frame.id, { scope with frames := rest })

/-- Opens a block with a number of its own. -/
def enter (scope : Scope) : BlockId × Scope :=
  let (id, scope) := scope.allocate
  (id, scope.push id)

/-- Closes the innermost block. -/
def leave (scope : Scope) : Scope := scope.pop.2

/-- The innermost block. -/
def current? (scope : Scope) : Option BlockId := scope.frames.head?.map Frame.id

def depth (scope : Scope) : Nat := scope.frames.length

/-- Closes all blocks. Numbers go on from where they were. -/
def clear (scope : Scope) : Scope := { scope with frames := [] }

/-- Adds a binding to the innermost of some frames that has a number. -/
def bindIn (name : String) (value : Value) (block : BlockId) : List Frame → Option (List Frame)
  | [] => none
  | frame :: rest =>
    if frame.id = block then some (frame.bind name value :: rest)
    else (bindIn name value block rest).map (frame :: ·)

/-- Binds a name in a block. -/
def register (scope : Scope) (name : String) (value : Value) (block : BlockId) : Except EvalError Scope :=
  match bindIn name value block scope.frames with
  | some frames => .ok { scope with frames := frames }
  | none => .error (.unknownBlock block)

/-- The frames that are seen from a block: its own and those around it. -/
def visible (scope : Scope) (block : BlockId) : List Frame :=
  scope.frames.dropWhile (·.id ≠ block)

/-- The value of a name as seen from a block. -/
def resolve (scope : Scope) (name : String) (block : BlockId) : Except EvalError Value :=
  match scope.visible block with
  | [] => .error (.unknownBlock block)
  | frames => match frames.findSome? (·.lookup? name) with
    | some value => .ok value
    | none => .error (.unboundVariable name)

end Scope
end ThreatModel
