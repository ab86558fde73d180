import SchemaLoom.Profile.Attribute
import SchemaLoom.Text.Case

/-!
Data types of a profile. Their names are read in any case and with blanks around; a name that is not
known stands for text.
-/
namespace SchemaLoom.Profile
open Xml (Node)

/-- Built-in types of a schema that values of a profile can have. -/
inductive Primitive where
  | string
  | decimal
  | integer
  | date
  | dateTime
  | boolean
  deriving DecidableEq, Repr

def Primitive.reference : Primitive → String
  | string => "xs:string"
  | decimal => "xs:decimal"
  | integer => "xs:integer"
  | date => "xs:date"
  | dateTime => "xs:dateTime"
  | boolean => "xs:boolean"

def Primitive.ofReference? (reference : String) : Option Primitive :=
  [string, decimal, integer, date, dateTime, boolean].find? (·.reference == reference)

/-- The type a data type name stands for. -/
def Primitive.ofText (name : String) : Primitive :=
  match Text.lower (Text.strip name) with
  | "number" => .decimal
  | "decimal" => .decimal
  | "integer" => .integer
  | "date" => .date
  | "datetime" => .dateTime
  | "boolean" => .boolean
  | _ => .string

/-- Types of single values in JSON. -/
inductive JsonPrimitive where
  | string
  | number
  | boolean
  deriving DecidableEq, Repr

def JsonPrimitive.name : JsonPrimitive → String
  | string => "string"
  | number => "number"
  | boolean => "boolean"

/-- The type of JSON values that a data type name stands for. -/
def JsonPrimitive.ofText (name : String) : JsonPrimitive :=
  match Text.lower (Text.strip name) with
  | "boolean" => .boolean
  | "number" => .number
  | "decimal" => .number
  | "integer" => .number
  | _ => .string

/-- The data type name that an element or attribute declares, by default that of text. -/
def dataType (n : Node) : String := (filled? n ["dataType", "type"]).getD "string"

def primitiveOf (n : Node) : Primitive := .ofText (dataType n)

example : Primitive.ofText " DateTime " = .dateTime ∧ Primitive.ofText "float" = .string := by
  decide +kernel

end SchemaLoom.Profile
