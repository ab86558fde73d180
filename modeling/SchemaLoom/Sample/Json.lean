import SchemaLoom.Profile.Shape
import SchemaLoom.Sample.Value

/-!
Samples of JSON: every entry of an object is written, and an array holds one item.
-/
namespace SchemaLoom.Sample
open Profile (Shape ObjectProfile ConversionError)

mutual
/-- The sample of a shape. Of entries of one name the last one counts, in the place of the first. -/
def ofShape : Shape → Json.Value
  | .object entries => .object (Json.ofMembers (entrySamples entries))
  | .array item => .array [ofShape item]
  | .single type => jsonValue type
def entrySamples : List (String × Bool × Shape) → List (String × Json.Value)
  | [] => []
  | (name, _, shape) :: rest => (name, ofShape shape) :: entrySamples rest
end

/-- The sample of a profile, which is empty where there is no object. -/
def ofProfile : Option ObjectProfile → Json.Value
  | some p => ofShape p.shape
  | none => .object []

/-- The sample of the profile of JSON in a document. -/
def jsonOf (document : Xml.Node) : Except ConversionError Json.Value :=
  match ObjectProfile.ofDocument document with
  | .error fault => .error (.malformed fault)
  | .ok profile => .ok (ofProfile profile)

end SchemaLoom.Sample
