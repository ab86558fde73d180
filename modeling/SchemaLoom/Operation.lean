import SchemaLoom.Files.Path
import SchemaLoom.Yaml.Value

/-!
The operations of the program, and the file that each of them writes: named like the input, with a
suffix of the operation's own, and next to the input unless a directory is chosen.
-/
namespace SchemaLoom

inductive Operation where
  | xsd
  | xmlSample
  | jsonSchema
  | jsonSample
  deriving DecidableEq, Repr

namespace Operation

/-- The operations in the order of the menu. -/
def all : List Operation := [xsd, xmlSample, jsonSchema, jsonSample]

def code : Operation → String
  | xsd => "xml-to-xsd"
  | xmlSample => "xml-sample"
  | jsonSchema => "json-to-schema"
  | jsonSample => "json-sample"

def suffix : Operation → String
  | xsd => ".xsd"
  | xmlSample => "-sample.xml"
  | jsonSchema => ".schema.json"
  | jsonSample => "-sample.json"

def ofCode? (code : String) : Option Operation := all.find? (·.code == code)

end Operation

/-- A chosen directory that is no name. -/
inductive StrangeDirectory where
  | kind (name : String)
  /-- A text that has no octets, by the numbers of its characters. -/
  | broken (codes : List Nat)
  deriving DecidableEq, Repr

def StrangeDirectory.message : StrangeDirectory → String
  | kind name =>
    if name == "bytes" then
      "argument should be a str object or an os.PathLike object returning str, not <class 'bytes'>"
    else "expected str, bytes or os.PathLike object, not " ++ name
  | broken codes => Text.encodingText codes

/-- The directory that is chosen; `none` where the choice is absent or empty. -/
def chosenDirectory (v : Yaml.Value) : Except StrangeDirectory (Option String) :=
  if v.isAbsent then .ok none
  else
    match v with
    | .string s => .ok (some s)
    | .broken codes => .error (.broken codes)
    | v => .error (.kind v.kindName)

def outputName (input : String) (outputDir : Yaml.Value) (op : Operation) :
    Except StrangeDirectory String :=
  (chosenDirectory outputDir).map fun directory =>
    let input := Files.Path.ofText input
    let place := match directory with
      | some name => Files.Path.ofText name
      | none => input.parent
    (place.join (input.stem ++ op.suffix)).text

/-- The file that holds the YAML of a schema of JSON. -/
def yamlName (output : String) : String := Files.withoutSuffix output ++ ".yaml"

end SchemaLoom
