import SchemaLoom.Profile.Siblings
import SchemaLoom.Profile.Notice

/-!
Declarations: what a profile says of an element in one normal form, apart from how it is spelled.
Everything that schemas and samples are made of is in it.
-/
namespace SchemaLoom.Profile
open Xml (Node)

/-- An attribute that an element may or must have. -/
structure AttributeUse where
  name : String
  primitive : Primitive
  facets : List Facet
  required : Bool
  deriving DecidableEq, Repr

/-- What a declaration says of one element, its content apart. -/
structure Facts where
  name : String
  primitive : Primitive
  facets : List Facet
  range : Range
  attributes : List AttributeUse
  deriving DecidableEq, Repr

/-- An element and the elements in it. -/
inductive Declaration where
  | mk (facts : Facts) (children : List Declaration)

namespace Declaration

def facts : Declaration → Facts
  | mk facts _ => facts

def children : Declaration → List Declaration
  | mk _ children => children

def name (d : Declaration) : String := d.facts.name
def primitive (d : Declaration) : Primitive := d.facts.primitive
def facets (d : Declaration) : List Facet := d.facts.facets
def range (d : Declaration) : Range := d.facts.range
def attributes (d : Declaration) : List AttributeUse := d.facts.attributes

end Declaration

/-- The tag of elements that declare an element. -/
def elementTag : String := "XMLElement"

/-- The tag of elements that declare an attribute. -/
def attributeTag : String := "XMLAttribute"

def AttributeUse.ofNode (n : Node) : AttributeUse :=
  ⟨nameOf n, primitiveOf n, facetsOf n (primitiveOf n), isRequired n⟩

def Facts.ofNode (n : Node) : Facts :=
  ⟨nameOf n, primitiveOf n, facetsOf n (primitiveOf n), rangeOf n,
    (n.childrenNamed attributeTag).map AttributeUse.ofNode⟩

mutual
def Declaration.ofNode : Node → Declaration
  | .element tag bindings attributes content =>
    .mk (.ofNode (.element tag bindings attributes content)) (Declaration.ofNodes content)
  | n => .mk (.ofNode n) []
def Declaration.ofNodes : List Node → List Declaration
  | [] => []
  | n :: rest =>
    if n.localName? == some elementTag then Declaration.ofNode n :: Declaration.ofNodes rest
    else Declaration.ofNodes rest
end

/-- Where a declaration stands: the positions among siblings on the way to it. -/
abbrev Trail := List Nat

def Declaration.at? : Declaration → Trail → Option Declaration
  | d, [] => some d
  | d, k :: path => d.children[k]?.bind (·.at? path)

/-- The element that holds the declaration at a place. -/
def nodeAt? : Node → Trail → Option Node
  | n, [] => some n
  | n, k :: path => (n.childrenNamed elementTag)[k]?.bind (nodeAt? · path)

/-- What happens while declarations are read and compiled, in order. -/
inductive Event where
  /-- The range of the declaration at a place was read. -/
  | rangeRead (path : Trail)
  /-- The facets of the declaration at a place were read. -/
  | facetsRead (path : Trail)
  /-- The facets of one attribute of the declaration at a place were read. -/
  | attributeRead (path : Trail) (index : Nat)
  | told (notice : Notice)
  deriving DecidableEq, Repr

/-- The notices of an event, the declarations being those below an element. -/
def Event.notices (root : Node) : Event → List Notice
  | rangeRead path => ((nodeAt? root path).map rangeNotices).getD []
  | facetsRead path => ((nodeAt? root path).map fun n => facetNotices n (primitiveOf n)).getD []
  | attributeRead path index =>
    match (nodeAt? root path).bind fun n => (n.childrenNamed attributeTag)[index]? with
    | some a => facetNotices a (primitiveOf a)
    | none => []
  | told notice => [notice]

end SchemaLoom.Profile
