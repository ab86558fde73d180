import SchemaLoom.Profile.Primitive
import SchemaLoom.Number.Integer

/-!
Facets: the least and greatest length of text, and the pattern it follows. Lengths are read for text
only, a pattern for every type.
-/
namespace SchemaLoom.Profile
open Xml (Node)

inductive Facet where
  | minLength (n : Nat)
  | maxLength (n : Nat)
  | pattern (text : String)
  deriving DecidableEq, Repr

def Facet.name : Facet → String
  | minLength _ => "minLength"
  | maxLength _ => "maxLength"
  | pattern _ => "pattern"

def Facet.value : Facet → String
  | minLength n => Number.natText n
  | maxLength n => Number.natText n
  | pattern text => text

/-- The length that a text spells, if it spells one. -/
def lengthOfText? (raw : String) : Option Nat :=
  match Number.ofText? (Text.strip raw) with
  | some (.ofNat n) => some n
  | _ => none

/-- A length that a node declares by one of its attributes. -/
def length? (n : Node) (key : String) : Option Nat := (filled? n [key]).bind lengthOfText?

/-- The facets of an element or attribute of some type: least length, greatest length, pattern. -/
def facetsOf (n : Node) (p : Primitive) : List Facet :=
  let lengths :=
    if p == .string then
      ((length? n "minLength").map Facet.minLength).toList ++
        ((length? n "maxLength").map Facet.maxLength).toList
    else []
  lengths ++ ((filled? n ["pattern"]).map Facet.pattern).toList

end SchemaLoom.Profile
