import SchemaLoom.Number.Binary64
import SchemaLoom.Number.Integer

/-!
Values of JSON. The members of an object keep the order in which their names first came up.
-/
namespace SchemaLoom.Json

inductive Value where
  | null
  | bool (b : Bool)
  | int (n : Int)
  | real (x : Number.Binary64)
  | string (s : String)
  | array (items : List Value)
  | object (members : List (String × Value))

/-- Sets a member: in its place where the name is known, and at the end otherwise. -/
def setMember (members : List (String × α)) (name : String) (value : α) : List (String × α) :=
  if members.any (·.1 == name) then
    members.map fun m => if m.1 == name then (name, value) else m
  else members ++ [(name, value)]

def ofMembers (pairs : List (String × α)) : List (String × α) :=
  pairs.foldl (fun members (name, value) => setMember members name value) []

def Value.member? (name : String) : Value → Option Value
  | object members => members.lookup name
  | _ => none

end SchemaLoom.Json
