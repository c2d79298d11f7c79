import ThreatModel.Value

/-!
# What a path reaches

A path is followed from the element under evaluation with one choice at every array on the way: an item of
the array, or a target of a relation to many. Each way to choose reaches at most one spot. There are no
lists of values here, and nothing is undefined: a choice that leads nowhere reaches nothing.
-/

namespace ThreatModel

/-- Where a path can end, with no choice left to make. -/
inductive Spot
  /-- Data that is not an array. -/
  | data (content : Json)
  /-- An element, by id, whether the diagram has it or not. -/
  | element (id : String)
  /-- The relations of an element, all together. -/
  | attached (owner : Element)

/-- The value of a spot. -/
def Spot.value : Spot → Value
  | data content => .json content
  | element id => .element id
  | attached owner => .relations owner.id

/-- What a segment of a path leads to, of which one spot is to be chosen. -/
inductive Offer
  /-- Data of any kind. -/
  | data (content : Json)
  | relation (relation : Relation)
  /-- The relations of an element, all together. -/
  | attached (owner : Element)

/-- Data inside data, with the index chosen in each of the arrays around it, the outermost first. -/
inductive Json.Picks : Json → List Nat → Json → Prop
  | leaf {data : Json} (single : ∀ items, data ≠ .array items) : Picks data [] data
  | item {items : List Json} {index : Nat} {item leaf : Json} {choices : List Nat}
      (stands : items[index]? = some item) (inside : Picks item choices leaf) :
      Picks (.array items) (index :: choices) leaf

/-- The spots of an offer, with the choices that lead to each. A relation to one target leaves no choice. -/
inductive Offer.Picks : Offer → List Nat → Spot → Prop
  | data {content leaf : Json} {choices : List Nat} (picks : content.Picks choices leaf) :
      Picks (.data content) choices (.data leaf)
  | one {target : String} : Picks (.relation (.one target)) [] (.element target)
  | many {targets : List String} {index : Nat} {target : String} (stands : targets[index]? = some target) :
      Picks (.relation (.many targets)) [index] (.element target)
  | attached {owner : Element} : Picks (.attached owner) [] (.attached owner)

/-- What an element offers under a name. -/
inductive Element.Offers (e : Element) : String → Offer → Prop
  | id : e.Offers "id" (.data (.text e.id))
  | metadata : e.Offers "metadata" (.data e.metadata.toJson)
  | attached : e.Offers "attached" (.attached e)
  | free {name : String} {data : Json} (other : name ∉ ["id", "metadata", "attached"])
      (found : e.attribute? name = some data) : e.Offers name (.data data)

/-- What a segment leads to from a spot: a field of an object, what an element of the diagram offers, or a
relation. From other data it leads nowhere, and neither does it from an element that is not there. -/
inductive Spot.Offers (diagram : Diagram) : Spot → String → Offer → Prop
  | field {fields : List (String × Json)} {name : String} {data : Json}
      (found : Json.field? name fields = some data) : Offers diagram (.data (.object fields)) name (.data data)
  | element {e : Element} {name : String} {offer : Offer} (inside : e ∈ diagram.elements)
      (offers : e.Offers name offer) : Offers diagram (.element e.id) name offer
  | relation {owner : Element} {name : String} {relation : Relation}
      (found : owner.relation? name = some relation) :
      Offers diagram (.attached owner) name (.relation relation)

/-- The spots to which segments lead from an offer, with all choices that are made on the way. -/
inductive Offer.Reaches (diagram : Diagram) : Offer → List String → List Nat → Spot → Prop
  | here {offer : Offer} {choices : List Nat} {spot : Spot} (picks : offer.Picks choices spot) :
      Reaches diagram offer [] choices spot
  | further {offer next : Offer} {segment : String} {segments : List String} {choices more : List Nat}
      {spot last : Spot} (picks : offer.Picks choices spot) (offers : spot.Offers diagram segment next)
      (reaches : Reaches diagram next segments more last) :
      Reaches diagram offer (segment :: segments) (choices ++ more) last

/-- The spots that a path reaches from the element under evaluation, with the choices that are made. -/
inductive Context.Reaches (context : Context) : List String → List Nat → Spot → Prop
  | path {first : String} {segments : List String} {offer : Offer} {choices : List Nat} {spot : Spot}
      (offers : context.element.Offers first offer)
      (reaches : offer.Reaches context.diagram segments choices spot) :
      context.Reaches (first :: segments) choices spot

/-- One way to choose comes before another in the order of the document: where the two part, it takes an
earlier item of the same array. -/
inductive Earlier : List Nat → List Nat → Prop
  | parts {i j : Nat} {left right : List Nat} (less : i < j) : Earlier (i :: left) (j :: right)
  | agrees {i : Nat} {left right : List Nat} (later : Earlier left right) : Earlier (i :: left) (i :: right)

/-- Some values are those of all spots that a path reaches, one for each way to choose, in the order of the
document. -/
def Context.Enumerates (context : Context) (path : List String) (values : List Value) : Prop :=
  ∃ routes : List (List Nat × Spot), values = routes.map (·.2.value) ∧
    routes.Pairwise (fun left right => Earlier left.1 right.1) ∧
    ∀ choices spot, (choices, spot) ∈ routes ↔ context.Reaches path choices spot

end ThreatModel
