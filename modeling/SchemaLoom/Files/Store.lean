import SchemaLoom.Files.Path
import SchemaLoom.Text.Quoted

/-!
Files below the current place: what stands where, and reading and writing by name. A name is
followed segment by segment, and every segment but the last has to be a directory.
-/
namespace SchemaLoom.Files

inductive Entry where
  | directory
  | file (octets : List UInt8)
  deriving DecidableEq, Repr

/-- Why a file or directory cannot be used. -/
inductive AccessReason where
  | missing
  | present
  | notDirectory
  | isDirectory
  /-- No file can have a name with a null character. -/
  | nullCharacter
  deriving DecidableEq, Repr

structure AccessFault where
  reason : AccessReason
  name : String
  deriving DecidableEq, Repr

def AccessReason.message : AccessReason → String
  | missing => "[Errno 2] No such file or directory"
  | present => "[Errno 17] File exists"
  | notDirectory => "[Errno 20] Not a directory"
  | isDirectory => "[Errno 21] Is a directory"
  | nullCharacter => "embedded null byte"

/-- A name with a null character is not told. -/
def AccessFault.message (f : AccessFault) : String :=
  if f.reason == .nullCharacter then f.reason.message
  else f.reason.message ++ ": " ++ Text.quoted f.name

/-- A place: the segments on the way to it. Places above the current one begin with `..`, and places
from the root with a slash. -/
abbrev Place := List String

/-- What stands where. The current place and places above it are directories. -/
structure Store where
  entries : List (Place × Entry)
  deriving DecidableEq, Repr

namespace Store

def empty : Store := ⟨[]⟩

def isGround (p : Place) : Bool := p.all (· == "..") || p == ["/"]

def entry? (t : Store) (p : Place) : Option Entry :=
  if isGround p then some .directory else t.entries.lookup p

/-- Puts an entry at a place; one that is there keeps its position. -/
def put (t : Store) (p : Place) (e : Entry) : Store :=
  if (t.entries.lookup p).isSome then
    ⟨t.entries.map fun (q, old) => if q == p then (q, e) else (q, old)⟩
  else ⟨t.entries ++ [(p, e)]⟩

def step (p : Place) (segment : String) : Place :=
  if segment == "" || segment == "." then p
  else if segment == ".." then
    match p.getLast? with
    | none => [".."]
    | some last => if last == ".." then p ++ [".."] else if last == "/" then p else p.dropLast
  else p ++ [segment]

def requireDirectory (t : Store) (p : Place) : Except AccessReason Unit :=
  match t.entry? p with
  | some .directory => .ok ()
  | some (.file _) => .error .notDirectory
  | none => .error .missing

/-- Follows segments. Every place on the way has to be a directory, the last one need not. -/
def follow (t : Store) (p : Place) : List String → Except AccessReason Place
  | [] => .ok p
  | s :: rest => do
    t.requireDirectory p
    t.follow (step p s) rest

def locate (t : Store) (name : String) : Except AccessReason Place :=
  if name == "" then .error .missing
  else if name.toList.contains '\x00' then .error .nullCharacter
  else t.follow (if name.startsWith "/" then ["/"] else []) ((segments name).filter (· != ""))

def endsWithSlash (name : String) : Bool := name.endsWith "/"

/-- What a name leads to. A slash at the end asks for a directory. -/
def find (t : Store) (name : String) : Except AccessReason Entry := do
  let p ← t.locate name
  match t.entry? p with
  | some .directory => return .directory
  | some (.file octets) =>
    if endsWithSlash name then throw .notDirectory else return .file octets
  | none => throw .missing

def holds (t : Store) (name : String) : Bool := (t.find name).toOption.isSome

def holdsFile (t : Store) (name : String) : Bool :=
  match t.find name with
  | .ok (.file _) => true
  | _ => false

def holdsDirectory (t : Store) (name : String) : Bool :=
  match t.find name with
  | .ok .directory => true
  | _ => false

def read (t : Store) (name : String) : Except AccessFault (List UInt8) :=
  match t.find name with
  | .ok (.file octets) => .ok octets
  | .ok .directory => .error ⟨.isDirectory, name⟩
  | .error reason => .error ⟨reason, name⟩

/-- Writes a file, over an older one if there is one. -/
def write (t : Store) (name : String) (octets : List UInt8) : Except AccessFault Store :=
  match t.locate name with
  | .error reason => .error ⟨reason, name⟩
  | .ok p =>
    match t.entry? p with
    | some .directory => .error ⟨.isDirectory, name⟩
    | some (.file _) =>
      if endsWithSlash name then .error ⟨.notDirectory, name⟩ else .ok (t.put p (.file octets))
    | none =>
      if endsWithSlash name then .error ⟨.isDirectory, name⟩ else .ok (t.put p (.file octets))

def makeDirectory (t : Store) (name : String) : Except AccessFault Store :=
  match t.locate name with
  | .error reason => .error ⟨reason, name⟩
  | .ok p =>
    if (t.entry? p).isSome then .error ⟨.present, name⟩ else .ok (t.put p .directory)

/-- The name of the directory above and the last segment; slashes at the end do not count. -/
def splitName (name : String) : String × String :=
  let last := baseName name
  if last == "" then (parentName (parentName name), baseName (parentName name))
  else (parentName name, last)

/-- Makes the last directory of a name. One that is there already is left as it is. -/
def makeLast (t : Store) (name : String) : Except AccessFault Unit × Store :=
  match t.makeDirectory name with
  | .ok t => (.ok (), t)
  | .error fault => (if t.holdsDirectory name then .ok () else .error fault, t)

/-- Makes the directories above a name, then its own. A file in the way of those above shows only
when the next one is made. The fuel bounds their number. -/
def makeFrom : Nat → Store → String → Except AccessFault Unit × Store
  | 0, t, _ => (.ok (), t)
  | fuel + 1, t, name =>
    let (above, last) := splitName name
    if above != "" && last != "" && !t.holds above then
      let (outcome, t) := makeFrom fuel t above
      match outcome with
      | .ok () => if last == "." then (.ok (), t) else t.makeLast name
      | .error fault =>
        if fault.reason != .present then (.error fault, t)
        else if last == "." then (.ok (), t) else t.makeLast name
    else t.makeLast name

/-- Makes a directory and those above it. What was made before a failure stays. -/
def makeDirectories (t : Store) (name : String) : Except AccessFault Unit × Store :=
  makeFrom (name.length + 1) t name

/-- The place that a name spells, whatever is there. -/
def placeOf (name : String) : Place :=
  (segments name).foldl step (if name.startsWith "/" then ["/"] else [])

/-- Adds an entry together with the directories above it. -/
def plant (t : Store) (name : String) (e : Entry) : Store :=
  let p := placeOf name
  let above := (List.range p.length).map fun k => p.take k
  let grown := above.foldl (fun t q => if (t.entry? q).isSome then t else t.put q .directory) t
  if isGround p then t else grown.put p e

/-- The files that are new or differ from an older state. -/
def changedSince (old new : Store) : List (String × List UInt8) :=
  new.entries.filterMap fun (p, e) =>
    match e with
    | .file octets =>
      if old.entries.lookup p == some (.file octets) then none
      else some ("/".intercalate p, octets)
    | .directory => none

end Store
end SchemaLoom.Files
