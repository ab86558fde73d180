import SchemaLoom.Json.Writer
import SchemaLoom.Xsd.Schema

/-!
The canonical text of a declaration: all that its type is made of, as JSON on one line. Of the
elements in it the digests of their own texts are taken.
-/
namespace SchemaLoom.Xsd
open Profile (Facet Range Bound AttributeUse Facts)
open Json (Value)

/-- What the text says of the elements of one name: their range and the digest of the first. -/
structure Entry where
  name : String
  range : Range
  digest : String
  deriving DecidableEq, Repr

def facetValue : Facet → Value
  | .minLength n => .array [.string "minLength", .int n]
  | .maxLength n => .array [.string "maxLength", .int n]
  | .pattern text => .array [.string "pattern", .string text]

def facetsValue (facets : List Facet) : Value := .array (facets.map facetValue)

def attributeValue (a : AttributeUse) : Value :=
  .array [.string a.name, .string a.primitive.reference, facetsValue a.facets, .bool a.required]

def boundValue : Bound → Value
  | .finite n => .int n
  | .unbounded => .string "unbounded"

def entryValue (e : Entry) : Value :=
  .array [.string e.name, .int e.range.lower, boundValue e.range.upper, .string e.digest]

/-- The parts of the text, ordered by their names. Elements are listed twice: sorted by name with
all that is known of them, and by name alone in their own order. -/
def signatureValue (withName : Bool) (f : Facts) (entries : List Entry) : Value :=
  let sorted := entries.mergeSort fun a b => decide (a.name ≤ b.name)
  .object ([
    ("attributes", .array (f.attributes.map attributeValue)),
    ("children", .array (sorted.map entryValue)),
    ("facets", facetsValue f.facets)] ++
    (if withName then [("name", .string f.name)] else []) ++ [
    ("order", .array (entries.map fun e => .string e.name)),
    ("type", .string f.primitive.reference)])

def signature (withName : Bool) (f : Facts) (entries : List Entry) : String :=
  (signatureValue withName f entries).line

end SchemaLoom.Xsd
