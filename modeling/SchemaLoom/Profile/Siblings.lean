import SchemaLoom.Profile.Range

/-!
Siblings of one name are declarations of one element. They are grouped in the order in which their
names first occur, and inside a group in the order they are written.
-/
namespace SchemaLoom.Profile

/-- The distinct elements of a list, in the order they first occur. -/
def firstOccurrences [BEq α] : List α → List α
  | [] => []
  | a :: rest => a :: (firstOccurrences rest).filter (· != a)

/-- All declarations of one name: the first stands for the others. -/
structure Siblings (α : Type) where
  name : String
  first : α
  others : List α

namespace Siblings

def members (g : Siblings α) : List α := g.first :: g.others

def count (g : Siblings α) : Nat := g.members.length

/-- A list as the group of a name, unless it is empty. -/
def ofList? (name : String) : List α → Option (Siblings α)
  | [] => none
  | a :: rest => some ⟨name, a, rest⟩

def byName (name : α → String) (xs : List α) : List (Siblings α) :=
  (firstOccurrences (xs.map name)).filterMap fun n => ofList? n (xs.filter (name · == n))

def range (f : α → Range) (g : Siblings α) : Range := .combineAll (f g.first) (g.others.map f)

@[simp] theorem members_ofList (name : String) (a : α) (rest : List α) :
    (ofList? name (a :: rest)).map members = some (a :: rest) := rfl

end Siblings

example : (Siblings.byName id ["b", "a", "b"]).map Siblings.members = [["b", "b"], ["a"]] := by
  decide

end SchemaLoom.Profile
