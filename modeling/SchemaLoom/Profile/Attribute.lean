import SchemaLoom.Text.Blank
import SchemaLoom.Xml.Naming
import SchemaLoom.Xml.Tree

/-!
Attributes of a profile. One fact may be spelled by several attributes, of which the first that is
not blank counts.
-/
namespace SchemaLoom.Profile
open Xml (Node)

/-- The value of the first of some attributes that is present and not blank. -/
def filled? (n : Node) (names : List String) : Option String :=
  names.findSome? fun name => (n.attribute? name).filter fun value => !Text.isBlankText value

/-- The same for keys that may carry a namespace in braces. A key that is no name is a fault, unless
one before it is found. -/
def filledKey? (n : Node) : List String → Except Xml.BuildFault (Option String)
  | [] => .ok none
  | key :: rest => do
    let (uri, name) ← Xml.splitTag key
    match (n.attributeIn? uri name).filter fun value => !Text.isBlankText value with
    | some value => .ok (some value)
    | none => filledKey? n rest

/-- The declared name, empty where there is none. -/
def nameOf (n : Node) : String := (n.attribute? "name").getD ""

end SchemaLoom.Profile
