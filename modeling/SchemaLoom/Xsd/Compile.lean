import SchemaLoom.Digest.Sha256
import SchemaLoom.Profile.Document
import SchemaLoom.Xsd.Registry
import SchemaLoom.Xsd.Signature

/-!
Compiling declarations to a schema. Elements of the same structure share one named type: a type is
looked up by the digest of its canonical text, and made where there is none. A failure keeps what
was learned before it.
-/
namespace SchemaLoom.Xsd
open Profile (Declaration Facts Siblings Trail Event Notice ConversionError ElementProfile)

/-- What becomes of declarations of one name that differ. -/
inductive MergeMode where
  /-- The first one counts. -/
  | permissive
  /-- They are refused. -/
  | strict
  deriving DecidableEq, Repr

def MergeMode.name : MergeMode → String
  | permissive => "permissive"
  | strict => "strict"

def MergeMode.all : List MergeMode := [.permissive, .strict]

def MergeMode.ofName? (name : String) : Option MergeMode := MergeMode.all.find? (·.name == name)

/-- The choices of a compilation. -/
structure Settings where
  mode : MergeMode
  /-- Elements of different names may share a type. -/
  shareAcrossNames : Bool
  /-- The digest of a canonical text. -/
  digest : String → String

def Settings.standard (mode : MergeMode) (shareAcrossNames : Bool) : Settings :=
  ⟨mode, shareAcrossNames, Digest.sha256⟩

/-- What a compilation knows: its namespace, its types, the digests of places that were computed,
and what happened so far, the latest first. -/
structure Context where
  uri : Option String
  registry : Registry
  digests : List (Trail × String)
  events : List Event

def Context.start (uri : Option String) : Context := ⟨uri, .empty, [], []⟩

/-- References carry a qualifier as soon as a namespace is given at all. -/
def Context.qualify (c : Context) (name : String) : String := Xsd.qualify c.uri.isSome name

abbrev Compiling := ExceptT ConversionError (StateM Context)

def tell (e : Event) : Compiling Unit := modify fun c => { c with events := e :: c.events }

/-- A declaration as the compiler meets it: where it stands, what it says, and how its digest and
its body under some name are come by. -/
structure Subject where
  path : Trail
  declaration : Declaration
  digest : Compiling String
  body : String → Compiling TypeBody

def Subject.name (s : Subject) : String := s.declaration.name

def groups (subjects : List Subject) : List (Siblings Subject) :=
  Siblings.byName Subject.name subjects

def rangeOf (g : Siblings Subject) : Profile.Range := g.range (·.declaration.range)

/-- Merges the declarations of a group. Where there are several, their digests decide whether they
agree. -/
def merge (s : Settings) (g : Siblings Subject) : Compiling Unit := do
  g.members.forM fun m => tell (.rangeRead m.path)
  if !g.others.isEmpty then
    let digests ← g.members.mapM (·.digest)
    if !digests.all (some · == digests.head?) then
      match s.mode with
      | .strict => throw (.conflict g.name g.count)
      | .permissive => tell (.told (.divergent g.count g.name))

def mergeAll (s : Settings) (gs : List (Siblings Subject)) : Compiling Unit := gs.forM (merge s)

/-- Reads the attributes of the declaration at a place. -/
def readAttributes (path : Trail) (f : Facts) : Compiling Unit :=
  (List.range f.attributes.length).forM fun k => tell (.attributeRead path k)

/-- What the canonical text says of a group. -/
def entryOf (g : Siblings Subject) : Compiling Entry := do
  let digest ← g.first.digest
  return ⟨g.name, rangeOf g, digest⟩

def digestOf (s : Settings) (path : Trail) (f : Facts) (children : List Subject) :
    Compiling String := do
  match (← get).digests.lookup path with
  | some digest => return digest
  | none =>
    let gs := groups children
    mergeAll s gs
    tell (.facetsRead path)
    readAttributes path f
    let entries ← gs.mapM entryOf
    let digest := s.digest (signature (!s.shareAcrossNames) f entries)
    modify fun c => { c with digests := (path, digest) :: c.digests }
    return digest

/-- The name of the type of a group: of one that is there already, or of one made now under a name
near the preferred one. -/
def typeFor (g : Siblings Subject) (preferred : String) : Compiling String := do
  let digest ← g.first.digest
  match (← get).registry.find? digest with
  | some t =>
    tell (.told (.reused g.name t.name))
    return t.name
  | none =>
    let name := ((← get).registry.allocate preferred).1
    modify fun c => { c with registry := (c.registry.allocate preferred).2 }
    let body ← g.first.body name
    modify fun c => { c with registry := c.registry.register ⟨name, digest, body⟩ }
    return name

/-- The type of an element without elements in it, inside of a sequence. -/
def leafContent (path : Trail) (f : Facts) : Compiling Content := do
  if !f.attributes.isEmpty then
    readAttributes path f
    return .extended f.primitive f.attributes
  else
    tell (.facetsRead path)
    if !f.facets.isEmpty && f.primitive == .string then return .restricted f.facets
    else return .builtin f.primitive

/-- The particle of a group inside of a sequence. -/
def particleOf (g : Siblings Subject) : Compiling Particle := do
  let d := g.first.declaration
  if !d.children.isEmpty then
    let name ← typeFor g (typeNameBase g.name)
    return ⟨g.name, rangeOf g, .named ((← get).qualify name)⟩
  else
    return ⟨g.name, rangeOf g, ← leafContent g.first.path d.facts⟩

/-- A name that a document cannot hold is refused. -/
def requireLegal (name : String) : Compiling Unit :=
  match Xml.legal name with
  | .ok () => return ()
  | .error fault => throw (.tree fault)

/-- The body of the type of a declaration, under some name. -/
def bodyOf (s : Settings) (path : Trail) (f : Facts) (children : List Subject) (name : String) :
    Compiling TypeBody := do
  let gs := groups children
  mergeAll s gs
  if !children.isEmpty then
    requireLegal name
    let particles ← gs.mapM particleOf
    readAttributes path f
    return .sequence particles f.attributes
  else if !f.attributes.isEmpty then
    requireLegal name
    readAttributes path f
    return .extended f.primitive f.attributes
  else
    tell (.facetsRead path)
    requireLegal name
    if !f.facets.isEmpty && f.primitive == .string then return .restricted f.facets
    else return .extended f.primitive []

mutual
/-- A declaration at a place, ready to be compiled. -/
def Subject.of (s : Settings) (path : Trail) : Declaration → Subject
  | .mk f children =>
    let below := Subject.ofAll s path 0 children
    ⟨path, .mk f children, digestOf s path f below, bodyOf s path f below⟩
/-- Declarations below a place, from a position on. -/
def Subject.ofAll (s : Settings) (path : Trail) (position : Nat) : List Declaration → List Subject
  | [] => []
  | d :: rest => Subject.of s (path ++ [position]) d :: Subject.ofAll s path (position + 1) rest
end

/-- Compiles the root element of a group: its name and the reference to its type. -/
def rootOf (s : Settings) (g : Siblings Subject) : Compiling (String × String) := do
  merge s g
  let name ← typeFor g (typeNameBase g.name)
  tell (.told (.rootType g.name name))
  return (g.name, (← get).qualify name)

/-- A schema can be written if its namespace and the names of its roots can stand in a document. An
empty namespace is none. -/
def Schema.make (uri : Option String) (roots : List (String × String))
    (types : List TypeDefinition) : Except Xml.BuildFault Schema := do
  let uri := uri.filter (· != "")
  match uri with
  | some uri => do
    Xml.legal uri
    Xml.checkUri uri
  | none => pure ()
  roots.forM fun (name, type) => do
    Xml.legal name
    Xml.legal type
  return ⟨uri, roots, types⟩

def compileRoots (s : Settings) (roots : List Declaration) : Compiling Schema := do
  let declared ← (groups (Subject.ofAll s [] 0 roots)).mapM (rootOf s)
  let c ← get
  match Schema.make c.uri declared c.registry.types with
  | .ok schema => return schema
  | .error fault => throw (.tree fault)

/-- The schema of a profile, or why there is none, and the state of the compilation at its end. -/
def run (s : Settings) (p : ElementProfile) : Except ConversionError Schema × Context :=
  (compileRoots s p.roots).run (.start p.uri)

def compile (s : Settings) (p : ElementProfile) : Except ConversionError Schema := (run s p).1

end SchemaLoom.Xsd
