import ThreatModel.Yaml.Token

/-!
# Events of a YAML document

The nodes of a document in the order of the text: a scalar is one event, a list or a table is enclosed in
two. Where the tokens do not make a document, the events before the fault are kept.
-/

namespace ThreatModel.Yaml

/-- What is said of a node in front of it. Anchors are known by names, or by numbers that stand for
them. -/
structure Properties (α : Type) where
  anchor : Option α := none
  tag : Option Tag := none
  deriving DecidableEq, Repr

inductive Event (α : Type)
  | alias (target : α)
  | scalar (properties : Properties α) (style : Style) (text : String)
  | listStart (properties : Properties α)
  | listEnd
  | tableStart (properties : Properties α)
  | tableEnd
  deriving DecidableEq, Repr

/-- Events, and the tokens after them; `none` if there is a fault after the events. -/
abbrev Parsed := List (Event String) × Option (List Token)

namespace Parsed

/-- One event in front of tokens. -/
def single (event : Event String) (tokens : List Token) : Parsed := ([event], some tokens)

def fault : Parsed := ([], none)

/-- Goes on behind events. -/
def andThen (first : Parsed) (next : List Token → Parsed) : Parsed :=
  match first with
  | (events, none) => (events, none)
  | (events, some tokens) =>
    let (more, rest) := next tokens
    (events ++ more, rest)

/-- Puts an event in front. -/
def cons (event : Event String) (parsed : Parsed) : Parsed := (event :: parsed.1, parsed.2)

end Parsed

/-- The handles of tags, with what they stand for. -/
abbrev Handles := List (List Char × Tag)

namespace Handles

/-- The handles that need no directive. -/
def standard : Handles :=
  [(['!'], .mark), (['!', '!'], .ofAscii "tag:yaml.org,2002:".toList)]

/-- The tag of a written name. -/
def resolve? (handles : Handles) (name : TagName) : Option Tag :=
  if name.handle.isEmpty then some name.rest
  else (handles.lookup name.handle).map fun start => start ++ name.rest

end Handles

namespace Event

/-- A scalar of which nothing is written. -/
def vacant (properties : Properties String) : Event String := .scalar properties .plain ""

/-- Reads the anchor and the tag in front of a node, in either order. -/
def properties? (handles : Handles) (tokens : List Token) : Option (Properties String × List Token) :=
  match tokens with
  | .anchor anchor :: .tag name :: rest | .tag name :: .anchor anchor :: rest => do
    let tag ← handles.resolve? name
    return (⟨some anchor, some tag⟩, rest)
  | .anchor anchor :: rest => some (⟨some anchor, none⟩, rest)
  | .tag name :: rest => do
    let tag ← handles.resolve? name
    return (⟨none, some tag⟩, rest)
  | tokens => some ({}, tokens)

/-- The event of a scalar. The tag `!` says no more than that the scalar has a tag, and is dropped. -/
def ofScalar (properties : Properties String) (style : Style) (text : List Char) : Event String :=
  let tag := if properties.tag = some .mark then none else properties.tag
  .scalar { properties with tag } style (String.ofList text)

/-- Tokens that may not start an item of a block list or what stands in a block table. -/
def endsBlockNode : Token → Bool
  | .key | .value | .blockEnd => true
  | _ => false

mutual
/-- Reads a node. In a block collection it may itself be one; as a value of a block table it may be a list
that is not indented. -/
def node (handles : Handles) : Nat → Bool → Bool → List Token → Parsed
  | 0, _, _, _ => .fault
  | fuel + 1, block, unindented, tokens =>
    match tokens with
    | [] => .fault
    | .alias name :: rest => .single (.alias name) rest
    | tokens =>
      match properties? handles tokens with
      | none => .fault
      | some (properties, tokens) =>
        match tokens with
        | [] => .fault
        | .scalar style text :: rest => .single (ofScalar properties style text) rest
        | .flowListStart :: rest => .cons (.listStart properties) (flowItems handles fuel true rest)
        | .flowTableStart :: rest => .cons (.tableStart properties) (flowEntries handles fuel true rest)
        | token :: rest =>
          if unindented && token = .blockEntry then
            .cons (.listStart properties) (unindentedItems handles fuel tokens)
          else if block && token = .blockList then
            .cons (.listStart properties) (blockItems handles fuel rest)
          else if block && token = .blockTable then
            .cons (.tableStart properties) (blockEntries handles fuel rest)
          else if properties ≠ {} then .single (vacant properties) tokens
          else .fault

/-- Reads the items of an indented list. -/
def blockItems (handles : Handles) : Nat → List Token → Parsed
  | 0, _ => .fault
  | fuel + 1, tokens =>
    match tokens with
    | .blockEnd :: rest => .single .listEnd rest
    | .blockEntry :: rest =>
      (blockPart handles fuel false (· = .blockEnd) rest).andThen (blockItems handles fuel)
    | _ => .fault

/-- Reads the items of a list that is not indented in its table. -/
def unindentedItems (handles : Handles) : Nat → List Token → Parsed
  | 0, _ => .fault
  | fuel + 1, tokens =>
    match tokens with
    | [] => .fault
    | .blockEntry :: rest =>
      (blockPart handles fuel false endsBlockNode rest).andThen (unindentedItems handles fuel)
    | tokens => .single .listEnd tokens

/-- Reads what stands behind the sign of an item, a key or a value; it is vacant where a token of some
kinds follows. -/
def blockPart (handles : Handles) : Nat → Bool → (Token → Bool) → List Token → Parsed
  | 0, _, _, _ => .fault
  | fuel + 1, unindented, ends, tokens =>
    match tokens with
    | [] => .fault
    | token :: _ =>
      if ends token || (!unindented && token = .blockEntry) then .single (vacant {}) tokens
      else node handles fuel true unindented tokens

/-- Reads the entries of a block table. -/
def blockEntries (handles : Handles) : Nat → List Token → Parsed
  | 0, _ => .fault
  | fuel + 1, tokens =>
    match tokens with
    | .blockEnd :: rest => .single .tableEnd rest
    | .key :: rest =>
      ((blockPart handles fuel true endsBlockNode rest).andThen (blockValue handles fuel)).andThen
        (blockEntries handles fuel)
    | _ => .fault

/-- Reads the value of an entry of a block table. -/
def blockValue (handles : Handles) : Nat → List Token → Parsed
  | 0, _ => .fault
  | fuel + 1, tokens =>
    match tokens with
    | [] => .fault
    | .value :: rest => blockPart handles fuel true endsBlockNode rest
    | tokens => .single (vacant {}) tokens

/-- Reads the items of a list in brackets. -/
def flowItems (handles : Handles) : Nat → Bool → List Token → Parsed
  | 0, _, _ => .fault
  | fuel + 1, isFirst, tokens =>
    match tokens with
    | .flowListEnd :: rest => .single .listEnd rest
    | .flowEntry :: rest =>
      if isFirst then .fault
      else match rest with
        | .flowListEnd :: rest => .single .listEnd rest
        | rest => (flowItem handles fuel rest).andThen (flowItems handles fuel false)
    | tokens =>
      if isFirst then (flowItem handles fuel tokens).andThen (flowItems handles fuel false) else .fault

/-- Reads an item of a list in brackets, which may be a table of one entry without braces. -/
def flowItem (handles : Handles) : Nat → List Token → Parsed
  | 0, _ => .fault
  | fuel + 1, tokens =>
    match tokens with
    | .key :: rest =>
      .cons (.tableStart {}) (((flowPairKey handles fuel rest).andThen
        (flowValue handles fuel .flowListEnd)).andThen fun tokens => .single .tableEnd tokens)
    | tokens => node handles fuel false false tokens

/-- Reads the key of a table without braces. If it is missing, the token in its place is passed over. -/
def flowPairKey (handles : Handles) : Nat → List Token → Parsed
  | 0, _ => .fault
  | fuel + 1, tokens =>
    match tokens with
    | [] => .fault
    | .value :: rest | .flowEntry :: rest | .flowListEnd :: rest => .single (vacant {}) rest
    | tokens => node handles fuel false false tokens

/-- Reads the entries of a table in braces. -/
def flowEntries (handles : Handles) : Nat → Bool → List Token → Parsed
  | 0, _, _ => .fault
  | fuel + 1, isFirst, tokens =>
    match tokens with
    | .flowTableEnd :: rest => .single .tableEnd rest
    | .flowEntry :: rest =>
      if isFirst then .fault
      else match rest with
        | .flowTableEnd :: rest => .single .tableEnd rest
        | rest => (flowEntry handles fuel rest).andThen (flowEntries handles fuel false)
    | tokens =>
      if isFirst then (flowEntry handles fuel tokens).andThen (flowEntries handles fuel false) else .fault

/-- Reads an entry of a table in braces; a node without the sign of a key is a key without a value. -/
def flowEntry (handles : Handles) : Nat → List Token → Parsed
  | 0, _ => .fault
  | fuel + 1, tokens =>
    match tokens with
    | .key :: rest =>
      (flowPart handles fuel (fun token => token = .value || token = .flowEntry || token = .flowTableEnd)
        rest).andThen (flowValue handles fuel .flowTableEnd)
    | tokens => (node handles fuel false false tokens).andThen fun tokens =>
      if tokens.isEmpty then .fault else .single (vacant {}) tokens

/-- Reads what stands behind the sign of a key or a value in a flow collection; it is vacant where a token
of some kinds follows. -/
def flowPart (handles : Handles) : Nat → (Token → Bool) → List Token → Parsed
  | 0, _, _ => .fault
  | fuel + 1, ends, tokens =>
    match tokens with
    | [] => .fault
    | token :: _ => if ends token then .single (vacant {}) tokens else node handles fuel false false tokens

/-- Reads the value of an entry of a flow collection that ends with `closing`. -/
def flowValue (handles : Handles) : Nat → Token → List Token → Parsed
  | 0, _, _ => .fault
  | fuel + 1, closing, tokens =>
    match tokens with
    | [] => .fault
    | .value :: rest => flowPart handles fuel (fun token => token = .flowEntry || token = closing) rest
    | tokens => .single (vacant {}) tokens
end

/-! ## Documents -/

/-- Adds a directive to the version and the handles of a document. -/
def addDirective? (version : Bool) (handles : Handles) : Directive → Option (Bool × Handles)
  | .version major minor =>
    if version || major ≠ 1 || !(minor = 1 || minor = 2) then none else some (true, handles)
  | .handle name expansion =>
    if (handles.lookup name).isSome then none else some (version, handles ++ [(name, expansion)])

/-- Reads the directives in front of a document. -/
def directives? (version : Bool) (handles : Handles) : List Token → Option (Handles × List Token)
  | .directive directive :: rest => do
    let (version, handles) ← addDirective? version handles directive
    directives? version handles rest
  | tokens => some (handles ++ Handles.standard, tokens)

/-- Whether a document that has its marker goes on with nothing. -/
def endsDocument : Token → Bool
  | .directive _ | .documentStart | .documentEnd | .streamEnd => true
  | _ => false

/-- Reads the content of a document. -/
def document (tokens : List Token) : Parsed :=
  let fuel := 4 * tokens.length + 4
  match tokens with
  | .directive _ :: _ | .documentStart :: _ =>
    match directives? false [] tokens with
    | some (handles, .documentStart :: rest) => match rest with
      | [] => .fault
      | token :: _ => if endsDocument token then .single (vacant {}) rest else node handles fuel true false rest
    | _ => .fault
  | tokens => node .standard fuel true false tokens

/-- Whether nothing more than markers of its end stands behind a document. -/
def isLast : List Token → Bool
  | .documentEnd :: rest => isLast rest
  | [.streamEnd] => true
  | _ => false

/-- The events of the first document of a text, and whether the text has no faults and no further
documents. -/
def ofTokens (tokens : List Token) : List (Event String) × Bool :=
  match tokens with
  | [.streamEnd] => ([], true)
  | tokens => match document tokens with
    | (events, none) => (events, false)
    | (events, some rest) => (events, isLast rest)

end Event
end ThreatModel.Yaml
