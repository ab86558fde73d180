import SchemaLoom.Profile.Document
import SchemaLoom.Sample.Value
import SchemaLoom.Xml.Writer

/-!
Sample documents: the first root element of a profile with every attribute, and of the elements in
it as many as there must be.
-/
namespace SchemaLoom.Sample
open Xml (Node QName Attribute BuildFault)
open Profile (Declaration Facts AttributeUse Siblings Trail Event StructureFault ConversionError
  ElementProfile)

def knownQualifiers : List (String × String) := [
  ("http://www.w3.org/XML/1998/namespace", "xml"),
  ("http://www.w3.org/1999/xhtml", "html"),
  ("http://www.w3.org/1999/XSL/Transform", "xsl"),
  ("http://www.w3.org/1999/02/22-rdf-syntax-ns#", "rdf"),
  ("http://schemas.xmlsoap.org/wsdl/", "wsdl"),
  ("http://www.w3.org/2001/XMLSchema", "xs"),
  ("http://www.w3.org/2001/XMLSchema-instance", "xsi"),
  ("http://purl.org/dc/elements/1.1/", "dc"),
  ("http://codespeak.net/lxml/objectify/pytype", "py")]

abbrev Scope := List (String × String)

/-- How many qualifiers were invented, and what happened so far, the latest first. -/
structure State where
  invented : Nat
  events : List Event

abbrev Building := ExceptT ConversionError (StateM State)

def tell (e : Event) : Building Unit := modify fun s => { s with events := e :: s.events }

def check (r : Except BuildFault α) : Building α :=
  match r with
  | .ok a => return a
  | .error fault => throw (.tree fault)

/-- A sample text, if it can be made. -/
def checkText (text : Option String) : Building String :=
  match text with
  | some text => return text
  | none => throw .overlong

/-- The nearest qualifier for a namespace that no nearer binding hides. An attribute needs one that
is written. -/
def qualifierFor? (forAttribute : Bool) (scope : Scope) (uri : String) : Option String :=
  if uri == Xml.xmlNamespace then some "xml"
  else (scope.find? fun (qualifier, bound) =>
    bound == uri && scope.lookup qualifier == some uri && !(forAttribute && qualifier == "")).map
    (·.1)

/-- The first invented qualifier that is free, after some number of them. -/
def inventQualifier (scope : Scope) (invented : Nat) : String × Nat :=
  let names := (List.range (scope.length + 1)).map fun k => invented + k
  let free := (names.find? fun k => !scope.any (·.1 == "ns" ++ Number.natText k)).getD invented
  ("ns" ++ Number.natText free, free + 1)

/-- A qualifier for a namespace that is not bound yet. -/
def newQualifier (scope : Scope) (uri : String) : Building String := do
  match knownQualifiers.lookup uri with
  | some qualifier => if !scope.any (·.1 == qualifier) then return qualifier
  | none => pure ()
  let (qualifier, invented) := inventQualifier scope (← get).invented
  modify fun s => { s with invented }
  return qualifier

/-- The namespace and the local part of an element. In a profile with a namespace that is the one of
every element. -/
def tagOf (uri : Option String) (name : String) : Except BuildFault (Option String × String) := do
  let written ← match uri with
    | none => pure name
    | some uri => do
      let (inner, part) ← Xml.splitTag uri
      Xml.legal name
      if !Xml.isPlainNameText name then throw (.invalidTag name)
      pure ("\x7b" ++ inner.getD part ++ "\x7d" ++ name)
  let (space, part) ← Xml.splitTag written
  if Xml.isPlainNameText part then .ok (space, part) else .error (.invalidTag part)

/-- What an element has so far: its own bindings and its attributes. -/
structure Front where
  bindings : List (String × String)
  attributes : List Attribute

/-- Sets an attribute. One of the same name changes its value in place. -/
def Front.set (f : Front) (name : QName) (value : String) : Front :=
  let same (a : Attribute) : Bool := a.name.localPart == name.localPart && a.name.uri == name.uri
  if f.attributes.any same then
    { f with attributes := f.attributes.map fun a => if same a then ⟨a.name, value⟩ else a }
  else { f with attributes := f.attributes ++ [⟨name, value⟩] }

/-- Sets the attribute that a declaration asks for, and binds its namespace where that is new. A
declaration without a name asks for none. -/
def setAttribute (outer : Scope) (path : Trail) (f : Front) (use : AttributeUse × Nat) :
    Building Front := do
  let (a, index) := use
  if a.name == "" then return f
  tell (.attributeRead path index)
  let value ← checkText (sampleText? a.primitive a.facets)
  let (space, part) ← check (Xml.splitTag a.name)
  if !Xml.isPlainNameText part then throw (.tree (.invalidAttribute part))
  match space with
  | none => return f.set (.plain part) value
  | some uri =>
    let scope := f.bindings ++ outer
    match qualifierFor? true scope uri with
    | some qualifier => return f.set ⟨qualifier, part, some uri⟩ value
    | none =>
      let qualifier ← newQualifier scope uri
      let f := { f with bindings := f.bindings ++ [(qualifier, uri)] }
      return f.set ⟨qualifier, part, some uri⟩ value

/-- The bound name of an element and the bindings that it needs. -/
def bindTag (own : List (String × String)) (outer : Scope) (space : Option String) (part : String) :
    Building (QName × List (String × String)) := do
  match space with
  | none => return (.plain part, own)
  | some uri =>
    check (Xml.checkUri uri)
    match qualifierFor? false (own ++ outer) uri with
    | some qualifier => return (⟨qualifier, part, some uri⟩, own)
    | none =>
      let qualifier ← newQualifier (own ++ outer) uri
      return (⟨qualifier, part, some uri⟩, own ++ [(qualifier, uri)])

/-- An element to be written, with bindings of its own and under those in scope. -/
structure Sampler where
  path : Trail
  declaration : Declaration
  write : List (String × String) → Scope → Building Node

/-- Some elements as often as their group must occur. -/
def writeGroup (scope : Scope) (g : Siblings Sampler) : Building (List Node) := do
  g.members.forM fun m => tell (.rangeRead m.path)
  let least := (g.range (·.declaration.range)).lower.toNat
  (List.replicate least ()).mapM fun _ => g.first.write [] scope

/-- Writes an element: its name, its attributes, and then its text or the elements in it. -/
def writeElement (uri : Option String) (path : Trail) (f : Facts) (below : List Sampler)
    (own : List (String × String)) (outer : Scope) : Building Node := do
  let (space, part) ← check (tagOf uri f.name)
  own.forM fun (_, bound) => do
    check (Xml.legal bound)
    check (Xml.checkUri bound)
  let (tag, bindings) ← bindTag own outer space part
  let front ← f.attributes.zipIdx.foldlM (setAttribute outer path) ⟨bindings, []⟩
  if below.isEmpty then
    tell (.facetsRead path)
    let text ← checkText (sampleText? f.primitive f.facets)
    return .element tag front.bindings front.attributes [.text text]
  else
    let scope := front.bindings ++ outer
    let groups := Siblings.byName (·.declaration.name) below
    let content ← groups.mapM (writeGroup scope)
    return .element tag front.bindings front.attributes content.flatten

mutual
/-- A declaration at a place, ready to be written. -/
def Sampler.of (uri : Option String) (path : Trail) : Declaration → Sampler
  | .mk f children =>
    let below := Sampler.ofAll uri path 0 children
    ⟨path, .mk f children, writeElement uri path f below⟩
/-- Declarations below a place, from a position on. -/
def Sampler.ofAll (uri : Option String) (path : Trail) (position : Nat) :
    List Declaration → List Sampler
  | [] => []
  | d :: rest => Sampler.of uri (path ++ [position]) d :: Sampler.ofAll uri path (position + 1) rest
end

/-- The sample of a profile, or why there is none, and what happened, the latest first. -/
def run (p : ElementProfile) : Except ConversionError Node × List Event :=
  match Sampler.ofAll p.uri [] 0 p.roots with
  | [] => (.error (.malformed .noElement), [])
  | root :: _ =>
    let own := (p.uri.map fun uri => ("", uri)).toList
    let (result, state) := (root.write own []).run ⟨0, []⟩
    (result, state.events)

/-- The sample of the profile in a document, as text. -/
def convert (document : Node) : Except ConversionError String :=
  match ElementProfile.ofDocument document with
  | .error fault => .error (.malformed fault)
  | .ok profile => (run profile).1.map Node.document

end SchemaLoom.Sample
