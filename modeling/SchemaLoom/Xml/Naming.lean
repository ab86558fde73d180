import SchemaLoom.Text.Quoted
import SchemaLoom.Uri
import SchemaLoom.Xml.Name

/-!
Names and values that are put into a tree by a program and not by a reader: what makes them unfit.
A name may carry its namespace in braces in front.
-/
namespace SchemaLoom.Xml

/-- Why a tree cannot be built. -/
inductive BuildFault where
  /-- A text holds characters that no document can hold. -/
  | illegalText
  | emptyTag
  /-- A namespace in braces has no closing brace. -/
  | unclosedTag
  | invalidTag (name : String)
  | invalidAttribute (name : String)
  | invalidNamespace (uri : String)
  deriving DecidableEq, Repr

def BuildFault.message : BuildFault → String
  | illegalText =>
    "All strings must be XML compatible: Unicode or ASCII, no NULL bytes or control characters"
  | emptyTag => "Empty tag name"
  | unclosedTag => "Invalid tag name"
  | invalidTag name => "Invalid tag name " ++ Text.quoted name
  | invalidAttribute name => "Invalid attribute name " ++ Text.quoted name
  | invalidNamespace uri => "Invalid namespace URI " ++ Text.quoted uri

/-- A document can hold every character of the text. -/
def isLegalText (s : String) : Bool := s.toList.all isXmlChar

def legal (s : String) : Except BuildFault Unit :=
  if isLegalText s then .ok () else .error .illegalText

/-- The namespace and the local part of a name such as `{uri}part`. Empty braces are no
namespace. -/
def splitTag (s : String) : Except BuildFault (Option String × String) := do
  legal s
  match s.toList with
  | [] => .error .emptyTag
  | '\x7b' :: rest =>
    match rest.dropWhile (· != '\x7d') with
    | [] => .error .unclosedTag
    | [_] => .error .emptyTag
    | _ :: part =>
      let uri := String.ofList (rest.takeWhile (· != '\x7d'))
      .ok (if uri == "" then none else some uri, String.ofList part)
  | _ => .ok (none, s)

/-- The namespace of the qualifier `xml`, which is bound everywhere. -/
def xmlNamespace : String := "http://www.w3.org/XML/1998/namespace"

/-- A namespace is a reference to a resource. -/
def checkUri (uri : String) : Except BuildFault Unit :=
  if Uri.isReference uri then .ok () else .error (.invalidNamespace uri)

end SchemaLoom.Xml
