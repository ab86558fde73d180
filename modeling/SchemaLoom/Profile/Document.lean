import SchemaLoom.Profile.Declaration
import SchemaLoom.Xml.Naming

/-!
The profile inside a document. An envelope around it does not matter: the first element of the right
name counts.
-/
namespace SchemaLoom.Profile
open Xml (Node)

/-- What a document lacks. -/
inductive StructureFault where
  | noXmlProfile
  | noJsonProfile
  | noDataElements
  | noElement
  deriving DecidableEq, Repr

def StructureFault.message : StructureFault → String
  | noXmlProfile => "<XMLProfile> not found in input file"
  | noJsonProfile => "<JSONProfile> not found in input file"
  | noDataElements => "<DataElements> not found in XMLProfile"
  | noElement => "<DataElements> declares no element"

/-- Why a profile cannot be converted. -/
inductive ConversionError where
  | malformed (fault : StructureFault)
  /-- Declarations of one name differ where they must not. -/
  | conflict (name : String) (count : Nat)
  | tree (fault : Xml.BuildFault)
  /-- A text would have to be padded with more characters than can be counted. -/
  | overlong
  deriving DecidableEq, Repr

def ConversionError.message : ConversionError → String
  | malformed fault => fault.message
  | conflict name count =>
    Number.natText count ++ " declarations of <" ++ name ++ "> differ in structure"
  | tree fault => fault.message
  | overlong => "cannot fit 'int' into an index-sized integer"

/-- The namespace of a profile and the element that holds its root declarations. -/
structure Source where
  uri : Option String
  holder : Node

/-- Finds the profile of XML in a document. -/
def Source.ofDocument (document : Node) : Except StructureFault Source :=
  match document.findFirst? "XMLProfile" with
  | none => .error .noXmlProfile
  | some profile =>
    match profile.findFirst? "DataElements" with
    | none => .error .noDataElements
    | some holder => .ok ⟨(filled? profile ["namespace"]).map Text.strip, holder⟩

/-- A profile of XML in normal form: its namespace and its root declarations. -/
structure ElementProfile where
  uri : Option String
  roots : List Declaration

def Source.profile (s : Source) : ElementProfile := ⟨s.uri, (Declaration.ofNode s.holder).children⟩

def ElementProfile.ofDocument (document : Node) : Except StructureFault ElementProfile :=
  (Source.ofDocument document).map Source.profile

/-- A document holds a profile of one of the two kinds. -/
def isProfile (document : Node) : Bool :=
  (document.findFirst? "XMLProfile").isSome || (document.findFirst? "JSONProfile").isSome

end SchemaLoom.Profile
