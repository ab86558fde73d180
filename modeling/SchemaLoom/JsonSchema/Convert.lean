import SchemaLoom.Json.Writer
import SchemaLoom.JsonSchema.Draft
import SchemaLoom.Profile.Shape

/-!
From shapes to JSON Schema: an object lists its properties and those that are required, an array
describes its items, and a single value has a type. A named root object becomes a definition that
the schema refers to.
-/
namespace SchemaLoom.JsonSchema
open Json (Value)
open Profile (Shape ObjectProfile JsonPrimitive StructureFault ConversionError)

def primitiveOf : Option String → JsonPrimitive
  | none => .string
  | some type => .ofText type

/-- The members of the schema of an object. Of entries of one name the last one counts, in the place
of the first; a name is required as often as its entries say so. -/
def objectMembers (properties : List (String × Value)) (required : List String) :
    List (String × Value) :=
  [("type", .string "object"), ("properties", .object (Json.ofMembers properties))] ++
    if required.isEmpty then [] else [("required", .array (required.map .string))]

def requiredNames (entries : List (String × Bool × Shape)) : List String :=
  entries.filterMap fun (name, required, _) => if required then some name else none

mutual
/-- The members of the schema of a shape. -/
def membersOf : Shape → List (String × Value)
  | .object entries => objectMembers (propertiesOf entries) (requiredNames entries)
  | .array item => [("type", .string "array"), ("items", .object (membersOf item))]
  | .single type => [("type", .string (primitiveOf type).name)]
def propertiesOf : List (String × Bool × Shape) → List (String × Value)
  | [] => []
  | (name, _, shape) :: rest => (name, .object (membersOf shape)) :: propertiesOf rest
end

def referenceTo (d : Draft) (name : String) : String := "#/" ++ d.definitionsKey ++ "/" ++ name

/-- The schema of a profile. One without an object is described by no more than its draft. -/
def schemaOf (d : Draft) (profile : Option ObjectProfile) : Value :=
  let head := ("$schema", Value.string d.uri)
  match profile with
  | none => .object [head]
  | some p =>
    match p.name with
    | some name => .object [head, ("$ref", .string (referenceTo d name)),
        (d.definitionsKey, .object [(name, .object (membersOf p.shape))])]
    | none => .object (head :: membersOf p.shape)

/-- The schema of the profile in a document. -/
def convert (d : Draft) (document : Xml.Node) : Except ConversionError Value :=
  match ObjectProfile.ofDocument document with
  | .error fault => .error (.malformed fault)
  | .ok profile => .ok (schemaOf d profile)

end SchemaLoom.JsonSchema
