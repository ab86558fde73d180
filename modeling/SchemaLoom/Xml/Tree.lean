/-!
Documents as trees: elements with their names, name bindings, attributes and content, text, and
processing instructions. Comments are no part of a tree.
-/
namespace SchemaLoom.Xml

/-- A name with the namespace it belongs to. `qualifier` is the spelling in front of the colon. -/
structure QName where
  qualifier : String
  localPart : String
  uri : Option String
  deriving DecidableEq, Repr

def QName.plain (name : String) : QName := ⟨"", name, none⟩

def QName.written (n : QName) : String :=
  if n.qualifier == "" then n.localPart else n.qualifier ++ ":" ++ n.localPart

structure Attribute where
  name : QName
  value : String
  deriving DecidableEq, Repr

/-- A part of a document. The bindings of an element are those it declares itself, an empty
qualifier standing for the default namespace. -/
inductive Node where
  | element (tag : QName) (bindings : List (String × String)) (attributes : List Attribute)
      (content : List Node)
  | text (chars : String)
  | instruction (target : String)

namespace Node

mutual
/-- Two nodes are compared part by part, their content node by node. -/
def decEq : (n m : Node) → Decidable (n = m)
  | element tag bindings attributes content, element tag' bindings' attributes' content' =>
    match decEqAll content content' with
    | .isTrue h => decidable_of_iff (tag = tag' ∧ bindings = bindings' ∧ attributes = attributes')
        (by simp [h])
    | .isFalse h => .isFalse fun he => h (Node.element.inj he).2.2.2
  | text chars, text chars' => decidable_of_iff (chars = chars') (by simp)
  | instruction target, instruction target' => decidable_of_iff (target = target') (by simp)
  | element .., text _ | element .., instruction _ | text _, element .. => .isFalse nofun
  | text _, instruction _ | instruction _, element .. | instruction _, text _ => .isFalse nofun
def decEqAll : (content content' : List Node) → Decidable (content = content')
  | [], [] => .isTrue rfl
  | [], _ :: _ | _ :: _, [] => .isFalse nofun
  | n :: rest, m :: rest' =>
    match decEq n m, decEqAll rest rest' with
    | .isTrue h, .isTrue hrest => .isTrue (h ▸ hrest ▸ rfl)
    | .isFalse h, _ => .isFalse fun he => h (List.cons.inj he).1
    | _, .isFalse hrest => .isFalse fun he => hrest (List.cons.inj he).2
end

instance : DecidableEq Node := decEq

def tag? : Node → Option QName
  | element tag _ _ _ => some tag
  | _ => none

def attributes : Node → List Attribute
  | element _ _ attributes _ => attributes
  | _ => []

def content : Node → List Node
  | element _ _ _ content => content
  | _ => []

/-- The name of an element without its namespace. -/
def localName? (n : Node) : Option String := n.tag?.map (·.localPart)

/-- The nodes below a node that are elements or instructions. -/
def children (n : Node) : List Node :=
  n.content.filter fun
    | text _ => false
    | _ => true

def childrenNamed (n : Node) (name : String) : List Node :=
  n.content.filter (·.localName? == some name)

def firstChild? (n : Node) (name : String) : Option Node := (n.childrenNamed name).head?

mutual
/-- A node and all below it, in document order. -/
def walk : Node → List Node
  | element tag bindings attributes content =>
    element tag bindings attributes content :: walkAll content
  | text chars => [text chars]
  | instruction target => [instruction target]
def walkAll : List Node → List Node
  | [] => []
  | n :: rest => walk n ++ walkAll rest
end

/-- The first element of a name in document order, the node itself included. -/
def findFirst? (n : Node) (name : String) : Option Node :=
  n.walk.find? (·.localName? == some name)

/-- The value of an attribute by its namespace and local name. -/
def attributeIn? (n : Node) (uri : Option String) (name : String) : Option String :=
  (n.attributes.find? fun a => a.name.uri == uri && a.name.localPart == name).map (·.value)

/-- The value of an attribute in no namespace. -/
def attribute? (n : Node) (name : String) : Option String := n.attributeIn? none name

end Node
end SchemaLoom.Xml
