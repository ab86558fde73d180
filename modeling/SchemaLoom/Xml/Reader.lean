import SchemaLoom.Distinct
import SchemaLoom.Text.Line
import SchemaLoom.Xml.Encoding
import SchemaLoom.Xml.Naming
import SchemaLoom.Xml.Piece
import SchemaLoom.Xml.Tree

/-!
Reading a document: its pieces are assembled to a tree in which every name has its namespace. A
document that is not well-formed, or whose names are bound to no namespace, has no tree.
-/
namespace SchemaLoom.Xml

def bindingNamespace : String := "http://www.w3.org/2000/xmlns/"

/-- Namespaces in scope by their qualifiers, the innermost first. -/
abbrev Scope := List (String × String)

/-- The namespace of a qualifier. The empty qualifier may be bound to nothing. -/
def Scope.find? (scope : Scope) (qualifier : String) : Option String :=
  if qualifier == "xml" then some xmlNamespace else List.lookup qualifier scope

/-- An element that is still open: its content in reverse, and the namespaces in scope inside it. -/
structure OpenElement where
  written : List Char
  tag : QName
  bindings : List (String × String)
  attributes : List Attribute
  scope : Scope
  content : List Node

def depthLimit : Nat := 256

/-- What is known of an attribute before its namespace: qualifier, local part and value. -/
abbrev RawAttribute := String × String × String

/-- A binding that an attribute declares: `none` for other attributes, and a fault for bindings that
are not allowed. -/
def binding? (a : RawAttribute) : Option (Option (String × String)) :=
  let (qualifier, name, uri) := a
  if qualifier == "" && name == "xmlns" then
    if uri == "" then some (some ("", ""))
    else if uri == xmlNamespace || uri == bindingNamespace || !Uri.isReference uri then none
    else some (some ("", uri))
  else if qualifier == "xmlns" then
    if name == "xml" then if uri == xmlNamespace then some (some ("xml", uri)) else none
    else if name == "xmlns" || uri == "" || uri == xmlNamespace || uri == bindingNamespace ||
      !Uri.isReference uri then none
    else some (some (name, uri))
  else some none

/-- An attribute with its namespace. Without a qualifier it is in none. -/
def attributeIn? (scope : Scope) (a : RawAttribute) : Option Attribute :=
  let (qualifier, name, value) := a
  if qualifier == "" then some ⟨.plain name, value⟩
  else do
    let uri ← scope.find? qualifier
    if qualifier == "xml" && name == "id" && !isPlainNameText value then none
    some ⟨⟨qualifier, name, some uri⟩, value⟩

def asWords (cs : List Char) : List Char :=
  List.intercalate [' '] ((cs.splitOn ' ').filter (!·.isEmpty))

def openElement? (dt : DocumentType) (scope : Scope) (written : List Char)
    (attributes : List (List Char × List Char)) : Option OpenElement := do
  let raw ← attributes.mapM fun (name, value) => do
    let (qualifier, part) ← splitName? name
    let words := dt.wordAttributes.contains (String.ofList written, String.ofList name)
    let value := if words then asWords value else value
    some (String.ofList qualifier, String.ofList part, String.ofList value)
  if !allDistinct (raw.map fun (qualifier, name, _) => (qualifier, name)) then none
  let found ← raw.mapM binding?
  let bindings := (found.filterMap id).filter (·.1 != "xml")
  let scope : Scope := bindings ++ scope
  let others := (raw.zip found).filterMap fun (a, binding) =>
    if binding.isNone then some a else none
  let resolved ← others.mapM (attributeIn? scope)
  if !allDistinct (resolved.map fun a => (a.name.uri, a.name.localPart)) then none
  let (qualifier, part) ← splitName? written
  let qualifier := String.ofList qualifier
  let uri ← match qualifier == "", scope.find? qualifier with
    | true, some "" => some none
    | true, found => some found
    | false, some uri => some (some uri)
    | false, none => none
  if qualifier == "xmlns" then none
  some ⟨written, ⟨qualifier, String.ofList part, uri⟩, bindings, resolved, scope, []⟩

def OpenElement.closed (e : OpenElement) : Node :=
  .element e.tag e.bindings e.attributes e.content.reverse

def isText : Node → Bool
  | .text _ => true
  | _ => false

/-- Blanks between tags are no content. They are kept where they are all the content of an element,
or where text stands before them. -/
def isLayout (e : OpenElement) (chars : List Char) (literal : Bool) (next : Option Piece) : Bool :=
  literal && chars.all isSpace && !(e.content.getLast?.any isText) &&
  match next with
  | some (.closing _) => !e.content.isEmpty
  | _ => true

/-- Assembles pieces. The innermost open element comes first; once the root is closed only blanks
and instructions may follow. -/
def assemble? (dt : DocumentType) : List OpenElement → Option Node → List Piece → Option Node
  | [], root, [] => root
  | _ :: _, _, [] => none
  | opened, root, .opening name attributes :: rest =>
    if root.isSome || opened.length ≥ depthLimit then none
    else
      let scope := (opened.head?.map (·.scope)).getD []
      match openElement? dt scope name attributes with
      | some e => assemble? dt (e :: opened) root rest
      | none => none
  | opened, root, .closing name :: rest =>
    match opened with
    | [] => none
    | e :: outer =>
      if e.written != name then none
      else
        match outer with
        | [] => assemble? dt [] (some e.closed) rest
        | parent :: others =>
          assemble? dt ({ parent with content := e.closed :: parent.content } :: others) root rest
  | opened, root, .text chars literal :: rest =>
    match opened with
    | [] => if literal && chars.all isSpace then assemble? dt [] root rest else none
    | e :: outer =>
      if chars.isEmpty || isLayout e chars literal rest.head? then assemble? dt opened root rest
      else
        let node := Node.text (String.ofList chars)
        assemble? dt ({ e with content := node :: e.content } :: outer) root rest
  | opened, root, .instruction target :: rest =>
    match opened with
    | [] => assemble? dt [] root rest
    | e :: outer =>
      let node := Node.instruction (String.ofList target)
      assemble? dt ({ e with content := node :: e.content } :: outer) root rest

/-- The root element of a document in characters. -/
def ofChars? (cs : List Char) : Option Node := do
  if !cs.all isXmlChar then none
  let rest ← afterDeclaration? (Text.plainLines cs)
  let (dt, rest) ← prolog? rest
  let pieces ← pieces? dt.entities rest
  assemble? dt [] none pieces

/-- The root element of a document in octets. -/
def ofOctets? (octets : List UInt8) : Option Node := (decode? octets).bind ofChars?

/-- The root element of a document that is given as text and read as its UTF-8 octets. -/
def ofText? (s : String) : Option Node := ofOctets? s.toUTF8.toList

end SchemaLoom.Xml
