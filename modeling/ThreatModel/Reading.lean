import ThreatModel.Node

/-!
# Reading records from nodes

A field is read as its type wants, and the first fault in the order of the document is the answer.
Fields that are missing are faults after all others, in the order in which the record has them.
-/

namespace ThreatModel.Node

/-- The fault of a node that is not of the wanted type. -/
def mismatch : Node → Fault
  | unreadable | cut => .other
  | _ => .wrongType

/-- Reads a text. -/
def text : Node → Except Fault String
  | scalar value => match value.text with
    | some content => .ok content
    | none => .error .wrongType
  | tagged _ node => node.text
  | node => .error node.mismatch

/-- Reads a truth value. -/
def truth : Node → Except Fault Bool
  | scalar value => match value.truth with
    | some truth => .ok truth
    | none => .error .wrongType
  | tagged _ node => node.truth
  | node => .error node.mismatch

/-- Reads what may be null. -/
def optional (read : Node → Except Fault α) (node : Node) : Except Fault (Option α) :=
  match node with
  | scalar value => do
    if ← value.isNull then return none
    return some (← read node)
  | node => do return some (← read node)

/-- Reads a list of items. -/
def items (read : Node → Except Fault α) : Node → Except Fault (List α)
  | list nodes => nodes.mapM read
  | scalar value => if value.vacant then .ok [] else .error .wrongType
  | tagged _ node => node.items read
  | node => .error node.mismatch

/-- Reads a list of texts. -/
def texts (node : Node) : Except Fault (List String) := node.items text

/-- Reads the name of one of some choices. -/
def choice (format : Format) (ofName? : String → Option α) (node : Node) : Except Fault α :=
  match node with
  | tagged tag inner => do
    let value ← named tag
    nothing inner
    return value
  | scalar value => match value.text with
    | some name => named name
    | none => .error format.noChoice
  | table entries =>
    if format.keyedChoice then
      match entries with
      | [] => .error .other
      | [(key, inner)] => do
        let value ← named (← key.text)
        nothing inner
        return value
      | (key, inner) :: _ =>
        if format.depth.isNone then .error .other
        else do
          let _ ← named (← key.text)
          nothing inner
          .error .other
    else .error .wrongType
  | list _ => .error format.noChoice
  | node => .error node.mismatch
where
  named (name : String) : Except Fault α :=
    match ofName? name with
    | some value => .ok value
    | none => .error (.unknownVariant name)
  /-- The value beside a choice says nothing. -/
  nothing : Node → Except Fault Unit
    | scalar value => do
      if ← value.isNull then return ()
      .error .wrongType
    | node => .error node.mismatch

/-- Passes over a value that is not wanted, of which only the text must be whole. -/
def ignore (node : Node) : Except Fault Unit :=
  if node.isCut then .error .other else .ok ()

/-! ## Records -/

/-- Takes the value of a field into an empty slot. -/
def once (name : String) (slot : Option α) (read : Except Fault α) : Except Fault (Option α) :=
  match slot with
  | some _ => .error (.duplicateField name)
  | none => do return some (← read)

/-- The value of a field that must be there. -/
def required (name : String) (slot : Option α) : Except Fault α :=
  match slot with
  | some value => .ok value
  | none => .error (.missingField name)

/-- Reads a record: `step` takes the value of a field into the slots read so far, and `finish` makes
the record of the slots. -/
def record (format : Format) (fields : List String) (step : σ → String → Node → Except Fault σ)
    (start : σ) (finish : σ → Except Fault α) : Node → Except Fault α
  | table entries => do
    let slots ← entries.foldlM (fun slots (key, value) => do step slots (← key.text) value) start
    finish slots
  | list nodes =>
    if format.positional then do
      let slots ← (fields.zip nodes).foldlM (fun slots (name, value) => step slots name value) start
      match finish slots with
      | .error (.missingField _) => .error .other
      | .error fault => .error fault
      | .ok value => if fields.length < nodes.length then .error .other else .ok value
    else .error .wrongType
  | scalar value => if value.vacant then finish start else .error .wrongType
  | tagged _ node => node.record format fields step start finish
  | node => .error node.mismatch

end ThreatModel.Node
