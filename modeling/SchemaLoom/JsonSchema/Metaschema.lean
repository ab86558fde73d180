import SchemaLoom.JsonSchema.Draft
import SchemaLoom.JsonSchema.Rule

/-!
The metaschemas: for each draft the rules that a schema of it follows. The later drafts state theirs
in vocabularies, which are asked one after another.
-/
namespace SchemaLoom.JsonSchema
open Rule

def text : List Rule := [kinds [.string]]
def flag : List Rule := [kinds [.boolean]]
def aNumber : List Rule := [kinds [.number]]

def schema : List Rule := [whole]

def count (whole : Kind) : List Rule := [kinds [whole], atLeast 0]

def schemaArray : List Rule := [kinds [.array], leastItems 1, everyItem schema]

def textArray : List Rule := [kinds [.array], everyItem text, distinctItems]

/-- A list of texts that is not empty. -/
def someTexts : List Rule := [kinds [.array], everyItem text, leastItems 1, distinctItems]

def schemaMap : List Rule := [kinds [.object], everyMember schema]

/-- The names of the kinds that schemas speak of. -/
def typeNames : List Rule :=
  [oneOf ["array", "boolean", "integer", "null", "number", "object", "string"]]

def types : List Rule :=
  [anyOf [typeNames, [kinds [.array], everyItem typeNames, leastItems 1, distinctItems]]]

def schemaOrArray : List Rule := [anyOf [schema, schemaArray]]

/-- A schema, or the names of other members. -/
def dependency (names : List Rule) : List Rule :=
  [kinds [.object], everyMember [anyOf [schema, names]]]

def flagOrSchema : List Rule := [anyOf [flag, schema]]

/-- What is a number of characters, items or members. -/
def limits (whole : Kind) : List (String × List Rule) :=
  ["maxLength", "minLength", "maxItems", "minItems", "maxProperties", "minProperties"].map
    fun name => (name, count whole)

def bounds (names : List String) : List (String × List Rule) :=
  names.map fun name => (name, aNumber)

def texts (names : List String) : List (String × List Rule) := names.map fun name => (name, text)

def schemas (names : List String) : List (String × List Rule) :=
  names.map fun name => (name, schema)

def schemaMaps (names : List String) : List (String × List Rule) :=
  names.map fun name => (name, schemaMap)

def schemaArrays (names : List String) : List (String × List Rule) :=
  names.map fun name => (name, schemaArray)

def flags (names : List String) : List (String × List Rule) := names.map fun name => (name, flag)

def draft04Rules : List Rule :=
  [ kinds [.object],
    members (
      texts ["id", "$schema", "title", "description"] ++
      [("multipleOf", [kinds [.number], above 0])] ++
      bounds ["maximum", "minimum"] ++
      flags ["exclusiveMaximum", "exclusiveMinimum"] ++
      limits .integer ++
      texts ["pattern", "format"] ++
      [ ("additionalItems", flagOrSchema),
        ("items", schemaOrArray),
        ("uniqueItems", flag),
        ("required", someTexts),
        ("additionalProperties", flagOrSchema)] ++
      schemaMaps ["definitions", "properties", "patternProperties"] ++
      [ ("dependencies", dependency someTexts),
        ("enum", [kinds [.array], leastItems 1, distinctItems]),
        ("type", types)] ++
      schemaArrays ["allOf", "anyOf", "oneOf"] ++
      schemas ["not"]),
    needs "exclusiveMaximum" "maximum",
    needs "exclusiveMinimum" "minimum" ]

/-- The members that schemas have had since the sixth draft. -/
def sharedMembers : List (String × List Rule) :=
  texts ["$id", "$schema", "$ref", "title", "description"] ++
  [ ("examples", [kinds [.array]]),
    ("multipleOf", [kinds [.number], above 0])] ++
  bounds ["maximum", "exclusiveMaximum", "minimum", "exclusiveMinimum"] ++
  limits .integral ++
  texts ["pattern", "format"] ++
  [ ("items", schemaOrArray),
    ("uniqueItems", flag),
    ("required", textArray)] ++
  schemaMaps ["definitions", "properties", "patternProperties"] ++
  [ ("dependencies", dependency textArray),
    ("enum", [kinds [.array]]),
    ("type", types)] ++
  schemaArrays ["allOf", "anyOf", "oneOf"] ++
  schemas ["additionalItems", "contains", "additionalProperties", "propertyNames", "not"]

/-- A schema is an object, or a truth value that accepts everything or nothing. -/
def isSchema : Rule := kinds [.object, .boolean]

def draft06Rules : List Rule := [isSchema, members sharedMembers]

def draft07Rules : List Rule :=
  [ isSchema,
    members (sharedMembers ++ texts ["$comment", "contentMediaType", "contentEncoding"] ++
      flags ["readOnly", "writeOnly"] ++ schemas ["if", "then", "else"]) ]

/-! The vocabularies of 2019 and 2020. -/

/-- The members that apply schemas to parts of a value, in both editions. -/
def applicators : List (String × List Rule) :=
  schemas ["contains", "additionalProperties", "propertyNames", "if", "then", "else", "not"] ++
  schemaMaps ["properties", "patternProperties", "dependentSchemas"] ++
  schemaArrays ["allOf", "anyOf", "oneOf"]

def validationMembers : List (String × List Rule) :=
  [("multipleOf", [kinds [.number], above 0])] ++
  bounds ["maximum", "exclusiveMaximum", "minimum", "exclusiveMinimum"] ++
  limits .integral ++
  [ ("maxContains", count .integral),
    ("minContains", count .integral),
    ("pattern", text),
    ("uniqueItems", flag),
    ("required", textArray),
    ("dependentRequired", [kinds [.object], everyMember textArray]),
    ("enum", [kinds [.array]]),
    ("type", types) ]

def annotationMembers : List (String × List Rule) :=
  texts ["title", "description"] ++ flags ["deprecated", "readOnly", "writeOnly"] ++
    [("examples", [kinds [.array]])]

def contentMembers : List (String × List Rule) :=
  texts ["contentMediaType", "contentEncoding"] ++ schemas ["contentSchema"]

/-- The vocabularies of a schema, each with the rule that it is one. -/
def vocabularies (groups : List (List (String × List Rule))) : List Rule :=
  groups.flatMap fun known => [isSchema, members known]

/-- Members of earlier drafts that are still understood. -/
def formerMembers : List (String × List Rule) :=
  [("definitions", schemaMap), ("dependencies", dependency textArray)]

/-- The vocabularies a schema draws on, by name. -/
def vocabularyUse : List Rule := [kinds [.object], everyName text, everyMember flag]

def draft2019Rules : List Rule :=
  vocabularies [
    [ ("$id", [kinds [.string], spelled .bareReference]),
      ("$schema", text),
      ("$anchor", [kinds [.string], spelled .anchor2019]),
      ("$ref", text),
      ("$recursiveRef", text),
      ("$recursiveAnchor", flag),
      ("$vocabulary", vocabularyUse),
      ("$comment", text),
      ("$defs", schemaMap) ],
    applicators ++ schemas ["additionalItems", "unevaluatedItems", "unevaluatedProperties"] ++
      [("items", schemaOrArray)],
    validationMembers,
    annotationMembers,
    [("format", text)],
    contentMembers ] ++
  [isSchema, members formerMembers]

def anchorName : List Rule := [kinds [.string], spelled .anchor2020]

def draft2020Rules : List Rule :=
  vocabularies [
    [ ("$id", [kinds [.string], spelled .bareReference]),
      ("$schema", text),
      ("$ref", text),
      ("$anchor", anchorName),
      ("$dynamicRef", text),
      ("$dynamicAnchor", anchorName),
      ("$vocabulary", vocabularyUse),
      ("$comment", text),
      ("$defs", schemaMap) ],
    [("prefixItems", schemaArray), ("items", schema)] ++ applicators,
    schemas ["unevaluatedItems", "unevaluatedProperties"],
    validationMembers,
    annotationMembers,
    [("format", text)],
    contentMembers ] ++
  [isSchema, members (formerMembers ++ [("$recursiveAnchor", anchorName), ("$recursiveRef", text)])]

/-- The rules of the metaschema of a draft. -/
def Draft.rules : Draft → List Rule
  | draft04 => draft04Rules
  | draft06 => draft06Rules
  | draft07 => draft07Rules
  | draft2019 => draft2019Rules
  | draft2020 => draft2020Rules

end SchemaLoom.JsonSchema
