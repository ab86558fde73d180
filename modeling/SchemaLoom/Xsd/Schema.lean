import SchemaLoom.Profile.Declaration
import SchemaLoom.Text.Case

/-!
Schemas: declarations of root elements and named types. A particle of a sequence has a built-in
type, refers to a named type, or carries its type with it.
-/
namespace SchemaLoom.Xsd
open Profile (Primitive Facet Range AttributeUse)

/-- The type of an element inside of a sequence. -/
inductive Content where
  /-- A reference to a named type. -/
  | named (reference : String)
  | builtin (primitive : Primitive)
  /-- Text restricted by facets. -/
  | restricted (facets : List Facet)
  /-- A value with attributes. -/
  | extended (base : Primitive) (attributes : List AttributeUse)
  deriving DecidableEq, Repr

/-- An element inside of a sequence. -/
structure Particle where
  name : String
  range : Range
  content : Content
  deriving DecidableEq, Repr

/-- What a named type stands for. -/
inductive TypeBody where
  | sequence (particles : List Particle) (attributes : List AttributeUse)
  | extended (base : Primitive) (attributes : List AttributeUse)
  | restricted (facets : List Facet)
  deriving DecidableEq, Repr

/-- A type is complex unless it restricts text. -/
def TypeBody.isComplex : TypeBody → Bool
  | restricted _ => false
  | _ => true

/-- A named type and the digest of what it was made for. -/
structure TypeDefinition where
  name : String
  digest : String
  body : TypeBody
  deriving DecidableEq, Repr

/-- Root elements with the types they refer to, and the types in the order they were made. -/
structure Schema where
  uri : Option String
  roots : List (String × String)
  types : List TypeDefinition
  deriving DecidableEq, Repr

/-- The name of the type that an element asks for: `purchaseOrder` asks for `PurchaseOrderType`. -/
def typeNameBase (name : String) : String := Text.upperFirst name ++ "Type"

/-- The name by which a type is referred to. Where there is a namespace it has a qualifier in
front. -/
def qualify (qualified : Bool) (name : String) : String :=
  if !qualified || name.startsWith "xs:" || name.startsWith "tns:" then name else "tns:" ++ name

end SchemaLoom.Xsd
