import SchemaLoom.Profile.Document

/-!
Profiles of JSON: objects with named entries, arrays of one kind of item, and single values, as they
are nested in a document.
-/
namespace SchemaLoom.Profile
open Xml (Node)

/-- What an entry of a profile of JSON holds. -/
inductive Shape where
  /-- Entries by name, each required or not, in the order they are written. -/
  | object (entries : List (String × Bool × Shape))
  | array (item : Shape)
  /-- A single value of a named data type, which an array may leave out. -/
  | single (type : Option String)

mutual
/-- The shape of an element that holds an object. -/
def objectShape : Node → Shape
  | .element _ _ _ content => .object (entriesIn content)
  | _ => .object []
def entriesIn : List Node → List (String × Bool × Shape)
  | [] => []
  | n :: rest =>
    if n.localName? == some "JSONObjectEntry" then
      (nameOf n, isRequired n, entryShape n) :: entriesIn rest
    else entriesIn rest
/-- The shape of an entry: the object in it, else the array in it, else a single value. -/
def entryShape : Node → Shape
  | .element tag bindings attributes content =>
    match objectIn? content with
    | some shape => shape
    | none =>
      match arrayIn? content with
      | some shape => shape
      | none => .single (some (dataType (.element tag bindings attributes content)))
  | n => .single (some (dataType n))
def objectIn? : List Node → Option Shape
  | [] => none
  | n :: rest =>
    if n.localName? == some "JSONObject" then some (objectShape n) else objectIn? rest
def arrayIn? : List Node → Option Shape
  | [] => none
  | n :: rest => if n.localName? == some "JSONArray" then some (arrayShape n) else arrayIn? rest
/-- The shape of an array. Its items are the object in it, else what the first described item is,
else single values. -/
def arrayShape : Node → Shape
  | .element tag bindings attributes content =>
    match objectIn? content with
    | some shape => .array shape
    | none =>
      match itemIn? content with
      | some shape => .array shape
      | none =>
        .array (.single ((Node.element tag bindings attributes content).attribute? "itemType"))
  | _ => .array (.single none)
def itemIn? : List Node → Option Shape
  | [] => none
  | n :: rest =>
    if n.localName? == some "JSONArrayElement" then some (entryShape n) else itemIn? rest
end

/-- The element of the root object below a profile: a child of it, or deeper down on a fixed way. -/
def rootObject? (profile : Node) : Option Node :=
  match profile.firstChild? "JSONObject" with
  | some object => some object
  | none => do
    let elements ← profile.firstChild? "DataElements"
    let root ← elements.firstChild? "JSONRootValue"
    root.firstChild? "JSONObject"

/-- A profile of JSON in normal form: the name of its root object, unless it is blank, and the shape
of that object. -/
structure ObjectProfile where
  name : Option String
  shape : Shape

/-- The profile of JSON in a document; `none` stands for one without an object. -/
def ObjectProfile.ofDocument (document : Node) : Except StructureFault (Option ObjectProfile) :=
  match document.findFirst? "JSONProfile" with
  | none => .error .noJsonProfile
  | some profile =>
    .ok ((rootObject? profile).map fun object => ⟨filled? object ["name"], objectShape object⟩)

end SchemaLoom.Profile
