import SchemaLoom.Json.Value
import SchemaLoom.Profile.Declaration

/-!
Sample values: one for each type. Sample text is cut and padded to the lengths that its facets
allow, as long as what it is padded with can be counted.
-/
namespace SchemaLoom.Sample
open Profile (Primitive Facet)

/-- Bounds of the length of a text. A negative upper bound counts from the end. -/
structure LengthBounds where
  lower : Option Int
  upper : Option Int
  deriving DecidableEq, Repr

/-- Bounds from named lengths, of which the last of a name counts. -/
def LengthBounds.ofList (lengths : List (String × Int)) : LengthBounds :=
  ⟨lengths.reverse.lookup "minLength", lengths.reverse.lookup "maxLength"⟩

def LengthBounds.ofFacets (facets : List Facet) : LengthBounds :=
  .ofList (facets.filterMap fun
    | .minLength n => some ("minLength", (n : Int))
    | .maxLength n => some ("maxLength", (n : Int))
    | .pattern _ => none)

/-- The front of a text up to a position, which counts from the end where it is negative. -/
def cut (upper : Int) (cs : List Char) : List Char :=
  match upper with
  | .ofNat n => cs.take n
  | .negSucc n => cs.take (cs.length - (n + 1))

/-- A text up to its upper bound. -/
def LengthBounds.front (bounds : LengthBounds) (s : String) : List Char :=
  match bounds.upper with
  | some upper => cut upper s.toList
  | none => s.toList

/-- How many characters a text up to its upper bound has too few. -/
def LengthBounds.gap (bounds : LengthBounds) (s : String) : Nat :=
  match bounds.lower with
  | some lower => (lower - (bounds.front s).length).toNat
  | none => 0

/-- A text that is cut to its upper bound and padded to its lower one. -/
def fitted (bounds : LengthBounds) (s : String) : String :=
  String.ofList (bounds.front s ++ List.replicate (bounds.gap s) 'x')

/-- How often a character can be repeated: a size is a number of 64 bits with a sign. -/
def paddingLimit : Nat := 9223372036854775807

/-- Cuts a text to its upper bound and pads it to its lower one; `none` where it has so many
characters too few that their number is no size. -/
def fitLength? (bounds : LengthBounds) (s : String) : Option String :=
  if bounds.gap s ≤ paddingLimit then some (fitted bounds s) else none

def textOf : Primitive → String
  | .string => "sampleText"
  | .decimal => "123.45"
  | .integer => "123"
  | .date => "2025-01-01"
  | .dateTime => "2025-01-01T12:00:00"
  | .boolean => "true"

/-- The sample text of a type with facets, whatever its length. -/
def sampleText (p : Primitive) (facets : List Facet) : String :=
  if p == .string then fitted (.ofFacets facets) (textOf p) else textOf p

/-- The sample text of a type with facets, if it can be made. -/
def sampleText? (p : Primitive) (facets : List Facet) : Option String :=
  if p == .string then fitLength? (.ofFacets facets) (textOf p) else some (textOf p)

/-- The sample value in JSON for a data type name, which may be absent. -/
def jsonValue : Option String → Json.Value
  | none => .string "sample"
  | some name =>
    match Text.lower (Text.strip name) with
    | "number" => .real (.ofDecimal false 12345 (-2))
    | "decimal" => .real (.ofDecimal false 12345 (-2))
    | "integer" => .int 123
    | "boolean" => .bool true
    | _ => .string "sampleText"

example : fitLength? ⟨some 12, some 6⟩ "sampleText" = some "samplexxxxxx" := by decide +kernel
example : fitLength? ⟨none, some (-4)⟩ "sampleText" = some "sample" := by decide +kernel
example : fitLength? ⟨some (2 ^ 63), some 0⟩ "sampleText" = none := by decide +kernel

end SchemaLoom.Sample
