import ThreatModel.Reading
import ThreatModel.Yaml.Schema

/-!
# Reading YAML texts

An alias stands for the node of its anchor, which is put in its place. A node that contains itself, or a
document that is all aliases, would never end, so aliases are followed a bounded number of times and
containers only to a bounded depth. Beyond these bounds nothing can be held, but the text goes on: a value
that is not wanted is passed over, whatever is in it.
-/

namespace ThreatModel.Yaml

/-! ## Anchors -/

/-- An event with the numbers of its anchors. The names in `names` have the numbers beside them. -/
def Properties.number (properties : Properties String) (number : Nat) : Properties Nat :=
  ⟨properties.anchor.map fun _ => number, properties.tag⟩

/-- Gives an anchor its name's number. -/
def rename (properties : Properties String) (number : Nat) (names : List (String × Nat)) :
    List (String × Nat) :=
  match properties.anchor with
  | some name => (name, number) :: names.filter (·.1 ≠ name)
  | none => names

/-- Replaces the names of anchors by numbers: an anchor has the number of different names that were given
before it. At an alias of an unknown name the events stop. -/
def numbered (names : List (String × Nat)) : List (Event String) → List (Event Nat) × Bool
  | [] => ([], true)
  | event :: rest =>
    let number := names.length
    match event with
    | .alias name => match names.lookup name with
      | some target => next (.alias target) (numbered names rest)
      | none => ([], false)
    | .scalar properties style text =>
      next (.scalar (properties.number number) style text) (numbered (rename properties number names) rest)
    | .listStart properties =>
      next (.listStart (properties.number number)) (numbered (rename properties number names) rest)
    | .tableStart properties =>
      next (.tableStart (properties.number number)) (numbered (rename properties number names) rest)
    | .listEnd => next .listEnd (numbered names rest)
    | .tableEnd => next .tableEnd (numbered names rest)
where
  next (event : Event Nat) (rest : List (Event Nat) × Bool) : List (Event Nat) × Bool :=
    (event :: rest.1, rest.2)

/-- The number of the anchor of an event. -/
def anchor? : Event Nat → Option Nat
  | .scalar properties _ _ | .listStart properties | .tableStart properties => properties.anchor
  | _ => none

/-- The events from each anchor on, the last anchor first. -/
def targets (seen : List (Nat × List (Event Nat))) : List (Event Nat) → List (Nat × List (Event Nat))
  | [] => seen
  | event :: rest => match anchor? event with
    | some number => targets ((number, event :: rest) :: seen) rest
    | none => targets seen rest

/-! ## Nodes -/

/-- A node, how many aliases may yet be followed, and the events after the node; `none` if the reading
stopped in the node. -/
structure Composed (α : Type) where
  value : α
  aliases : Nat
  rest : Option (List (Event Nat))

/-- Where the reading stops. -/
def Composed.stop (value : α) : Composed α := ⟨value, 0, none⟩

/-- The events behind a container, from a place in it on that is inside `inner` other containers. -/
def behind? (inner : Nat) : List (Event Nat) → Option (List (Event Nat))
  | [] => none
  | event :: rest => match event, inner with
    | .listStart _, _ | .tableStart _, _ => behind? (inner + 1) rest
    | .listEnd, 0 | .tableEnd, 0 => some rest
    | .listEnd, inner + 1 | .tableEnd, inner + 1 => behind? inner rest
    | .alias _, _ | .scalar _ _ _, _ => behind? inner rest

/-- Passes over the content of a container that is too deep to be made. -/
def Composed.tooDeep (gap : Node) (container : Node → Node) (aliases : Nat) (events : List (Event Nat)) :
    Composed Node :=
  match behind? 0 events with
  | some rest => ⟨container .unreadable, aliases, some rest⟩
  | none => .stop (container gap)

mutual
/-- Makes the node that events start with, with at most `depth` containers inside one another. Where the
events end there is a `gap`. An alias is whole even if its target is not, so what it stands for can be passed
over. -/
def composeNode (targets : List (Nat × List (Event Nat))) :
    Nat → Node → Nat → Nat → List (Event Nat) → Composed Node
  | 0, gap, _, _, _ => .stop gap
  | fuel + 1, gap, depth, aliases, events =>
    match events with
    | .alias number :: rest =>
      match aliases, targets.lookup number with
      | aliases + 1, some target =>
        { composeNode targets fuel .unreadable depth aliases target with rest := some rest }
      | _, _ => ⟨.unreadable, aliases, some rest⟩
    | .scalar properties style text :: rest => ⟨Schema.scalar properties.tag style text, aliases, some rest⟩
    | .listStart properties :: rest =>
      match depth with
      | 0 => .tooDeep gap (fun item => Schema.tagged properties.tag (.list [item])) aliases rest
      | depth + 1 =>
        let composed := composeItems targets fuel gap depth aliases rest
        { composed with value := Schema.tagged properties.tag (.list composed.value) }
    | .tableStart properties :: rest =>
      match depth with
      | 0 => .tooDeep gap (fun part => Schema.tagged properties.tag (.table [(part, part)])) aliases rest
      | depth + 1 =>
        let composed := composeEntries targets fuel gap depth aliases rest
        { composed with value := Schema.tagged properties.tag (.table composed.value) }
    | _ => .stop gap

/-- Makes the items of a list. -/
def composeItems (targets : List (Nat × List (Event Nat))) :
    Nat → Node → Nat → Nat → List (Event Nat) → Composed (List Node)
  | 0, gap, _, _, _ => .stop [gap]
  | fuel + 1, gap, depth, aliases, events =>
    match events with
    | .listEnd :: rest => ⟨[], aliases, some rest⟩
    | events =>
      let item := composeNode targets fuel gap depth aliases events
      match item.rest with
      | none => .stop [item.value]
      | some rest =>
        let items := composeItems targets fuel gap depth item.aliases rest
        { items with value := item.value :: items.value }

/-- Makes the entries of a table. -/
def composeEntries (targets : List (Nat × List (Event Nat))) :
    Nat → Node → Nat → Nat → List (Event Nat) → Composed (List (Node × Node))
  | 0, gap, _, _, _ => .stop [(gap, gap)]
  | fuel + 1, gap, depth, aliases, events =>
    match events with
    | .tableEnd :: rest => ⟨[], aliases, some rest⟩
    | events =>
      let key := composeNode targets fuel gap depth aliases events
      match key.rest with
      | none => .stop [(key.value, gap)]
      | some rest =>
        let value := composeNode targets fuel gap depth key.aliases rest
        match value.rest with
        | none => .stop [(key.value, value.value)]
        | some rest =>
          let entries := composeEntries targets fuel gap depth value.aliases rest
          { entries with value := (key.value, value.value) :: entries.value }
end

/-- How many aliases are followed for each event of a document. -/
def aliasesPerEvent : Nat := 100

/-- The depth to which containers are composed, one more than any reader goes. -/
def composedDepth : Nat := 129

/-- The node of a document's events. -/
def compose (events : List (Event Nat)) : Node :=
  let aliases := aliasesPerEvent * events.length
  let fuel := (aliases + 1) * (events.length + 1) + 1
  (composeNode (targets [] events) fuel .cut composedDepth aliases events).value

/-- The node of a text, and whether the text holds no more than one document and nothing else. -/
def scan (text : String) : Node × Bool :=
  let (events, sound) := Event.ofTokens (Token.ofText text)
  if events.isEmpty && sound then (.scalar (.vacancy none), true)
  else
    let (events, known) := numbered [] events
    (compose events, sound && known)

/-- Reads a record from a text. -/
def readWith (read : Node → Except Fault α) (text : String) : Except Fault α := do
  let (node, sound) := scan text
  let value ← read node
  if sound then return value else .error .other

end ThreatModel.Yaml
