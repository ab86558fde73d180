import SchemaLoom.Xml.Writer
import SchemaLoom.Xsd.Compile

/-!
Schemas as documents: every part of a schema is an element of the namespace of schemas.
-/
namespace SchemaLoom.Xsd
open Xml (Node QName)
open Profile (Primitive Facet Range AttributeUse ConversionError)

def schemaUri : String := "http://www.w3.org/2001/XMLSchema"

/-- The binding of the qualifier that names of schemas are written with. -/
def schemaBinding : String × String := ("xs", schemaUri)

def tagOf (name : String) : QName := ⟨"xs", name, some schemaUri⟩

/-- An element of a schema with attributes in order. -/
def part (name : String) (attributes : List (String × String)) (content : List Node) : Node :=
  .element (tagOf name) [] (attributes.map fun (name, value) => ⟨.plain name, value⟩) content

/-- An element that stands alone binds the qualifier of its name. -/
def standalone : Node → Node
  | .element tag _ attributes content => .element tag [schemaBinding] attributes content
  | n => n

def renderFacet (f : Facet) : Node := part f.name [("value", f.value)] []

def renderRestriction (base : Primitive) (facets : List Facet) : Node :=
  part "restriction" [("base", base.reference)] (facets.map renderFacet)

/-- An attribute, with a type of its own where it has facets. -/
def renderAttribute (a : AttributeUse) : Node :=
  let use := if a.required then [("use", "required")] else []
  if a.facets.isEmpty then
    part "attribute" ([("name", a.name), ("type", a.primitive.reference)] ++ use) []
  else
    part "attribute" (("name", a.name) :: use)
      [part "simpleType" [] [renderRestriction a.primitive a.facets]]

def renderExtension (base : Primitive) (attributes : List AttributeUse) : Node :=
  part "simpleContent" []
    [part "extension" [("base", base.reference)] (attributes.map renderAttribute)]

def renderParticle (p : Particle) : Node :=
  let occurs := [("minOccurs", Number.text p.range.lower), ("maxOccurs", p.range.upper.text)]
  match p.content with
  | .named reference => part "element" ([("name", p.name), ("type", reference)] ++ occurs) []
  | .builtin primitive =>
    part "element" ([("name", p.name), ("type", primitive.reference)] ++ occurs) []
  | .restricted facets =>
    part "element" (("name", p.name) :: occurs)
      [part "simpleType" [] [renderRestriction .string facets]]
  | .extended base attributes =>
    part "element" (("name", p.name) :: occurs)
      [part "complexType" [] [renderExtension base attributes]]

def TypeBody.render (name : String) : TypeBody → Node
  | .sequence particles attributes =>
    part "complexType" [("name", name)]
      (part "sequence" [] (particles.map renderParticle) :: attributes.map renderAttribute)
  | .extended base attributes =>
    part "complexType" [("name", name)] [renderExtension base attributes]
  | .restricted facets => part "simpleType" [("name", name)] [renderRestriction .string facets]

def TypeDefinition.render (t : TypeDefinition) : Node := t.body.render t.name

def renderRoot (name type : String) : Node := part "element" [("name", name), ("type", type)] []

def Schema.render (s : Schema) : Node :=
  let content := s.roots.map (fun (name, type) => renderRoot name type) ++
    s.types.map TypeDefinition.render
  match s.uri with
  | some uri =>
    .element (tagOf "schema") [schemaBinding, ("tns", uri)]
      [⟨.plain "targetNamespace", uri⟩, ⟨.plain "elementFormDefault", "qualified"⟩] content
  | none =>
    .element (tagOf "schema") [schemaBinding] [⟨.plain "elementFormDefault", "unqualified"⟩] content

def Schema.text (s : Schema) : String := s.render.document

/-- The schema of the profile in a document, as text. -/
def convert (s : Settings) (document : Node) : Except ConversionError String :=
  match Profile.ElementProfile.ofDocument document with
  | .error fault => .error (.malformed fault)
  | .ok profile => (compile s profile).map Schema.text

end SchemaLoom.Xsd
