import SchemaLoom.Xsd.Schema

/-!
The types of a schema in the making, known by their digests, and the names that are taken.
-/
namespace SchemaLoom.Xsd

structure Registry where
  types : List TypeDefinition
  usedNames : List String
  deriving DecidableEq, Repr

namespace Registry

def empty : Registry := ⟨[], []⟩

def find? (r : Registry) (digest : String) : Option TypeDefinition :=
  r.types.find? (·.digest == digest)

/-- A name with a number behind it; zero is not written. -/
def numbered (preferred : String) : Nat → String
  | 0 => preferred
  | k + 1 => preferred ++ Number.natText (k + 1)

/-- The first name free among a preferred one and its numbered variants. As many names as are taken,
and one more, are tried. -/
def freeName (used : List String) (preferred : String) : String :=
  ((List.range (used.length + 1)).findSome? fun k =>
    let name := numbered preferred k
    if used.contains name then none else some name).getD preferred

def allocate (r : Registry) (preferred : String) : String × Registry :=
  let name := freeName r.usedNames preferred
  (name, { r with usedNames := r.usedNames ++ [name] })

/-- Adds a type. One of the same digest gives way to it. -/
def register (r : Registry) (t : TypeDefinition) : Registry :=
  if (r.find? t.digest).isSome then
    { r with types := r.types.map fun old => if old.digest == t.digest then t else old }
  else { r with types := r.types ++ [t] }

end Registry

example : (Registry.allocate ⟨[], ["A", "A1"]⟩ "A").1 = "A2" := by decide +kernel

end SchemaLoom.Xsd
