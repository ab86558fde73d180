import SchemaLoom.Distinct
import SchemaLoom.Text.Blank
import SchemaLoom.Uri
import SchemaLoom.Xml.Reader
import SchemaLoom.Xsd.Pattern
import SchemaLoom.Xsd.Render

/-!
Whether a run reports a document as a schema: its parts stand where they may, have the attributes
they must, and refer to what there is. Only the outcome is told, not what is wrong. This is the
verdict of the validator that a run asks, and not all that is required of schemas: a least length
above the greatest one passes, since that validator does not compare the two.
-/
namespace SchemaLoom.Xsd
open Xml (Node)

/-- A step of what may stand in a part: some names, once at most or again and again. -/
structure Step where
  names : List String
  repeats : Bool

def once (names : List String) : Step := ⟨names, false⟩
def often (names : List String) : Step := ⟨names, true⟩

/-- Names in a row follow steps, of which each may be left out. -/
def follows : List Step → List String → Bool
  | _, [] => true
  | [], _ :: _ => false
  | s :: steps, name :: rest =>
    if s.names.contains name then follows (if s.repeats then s :: steps else steps) rest
    else follows steps (name :: rest)
termination_by steps names => (names.length, steps.length)

def builtinTypes : List String := [
  "anyType", "anySimpleType", "string", "boolean", "decimal", "float", "double", "duration",
  "dateTime", "time", "date", "gYearMonth", "gYear", "gMonthDay", "gDay", "gMonth", "hexBinary",
  "base64Binary", "anyURI", "QName", "NOTATION", "normalizedString", "token", "language", "NMTOKEN",
  "NMTOKENS", "Name", "NCName", "ID", "IDREF", "IDREFS", "ENTITY", "ENTITIES", "integer",
  "nonPositiveInteger", "negativeInteger", "long", "int", "short", "byte", "nonNegativeInteger",
  "unsignedLong", "unsignedInt", "unsignedShort", "unsignedByte", "positiveInteger"]

def facetNames : List String := [
  "minExclusive", "minInclusive", "maxExclusive", "maxInclusive", "totalDigits", "fractionDigits",
  "length", "minLength", "maxLength", "enumeration", "whiteSpace", "pattern"]

/-- What may be declared at the top of a schema. -/
def topNames : List String :=
  ["simpleType", "complexType", "element", "attribute", "attributeGroup", "group", "notation"]

def note : Step := once ["annotation"]

def attributeSteps : List Step := [often ["attribute", "attributeGroup"], once ["anyAttribute"]]

def modelSteps : List Step := [often ["element", "group", "choice", "sequence", "any"]]

def stepsOf (name : String) : List Step :=
  match name with
  | "schema" => [often ["import", "annotation"], often ("annotation" :: topNames)]
  | "element" => [note, once ["simpleType", "complexType"], often ["unique", "key", "keyref"]]
  | "complexType" =>
    -- content that is told by its base leaves no room for attributes of its own
    note :: once ["group", "all", "choice", "sequence"] :: attributeSteps
  | "simpleContent" => [note, once ["restriction", "extension"]]
  | "complexContent" => [note, once ["restriction", "extension"]]
  | "sequence" => note :: modelSteps
  | "choice" => note :: modelSteps
  | "all" => [note, often ["element"]]
  | "group" => [note, once ["all", "choice", "sequence"]]
  | "attributeGroup" => note :: attributeSteps
  | "attribute" => [note, once ["simpleType"]]
  | "simpleType" => [note, once ["restriction", "list", "union"]]
  | "list" => [note, once ["simpleType"]]
  | "union" => [note, often ["simpleType"]]
  | "unique" => [note, once ["selector"], often ["field"]]
  | "key" => [note, once ["selector"], often ["field"]]
  | "keyref" => [note, once ["selector"], often ["field"]]
  | _ => [note]

/-- What may stand in a restriction or an extension, by the part around it. -/
def derivationSteps (around name : String) : List Step :=
  match around with
  | "simpleType" => [note, once ["simpleType"], often facetNames]
  | "simpleContent" =>
    if name == "restriction" then note :: once ["simpleType"] :: often facetNames :: attributeSteps
    else note :: attributeSteps
  | _ => note :: once ["group", "all", "choice", "sequence"] :: attributeSteps

def attributesOf (isTop : Bool) (name : String) : List String :=
  let particle := ["minOccurs", "maxOccurs"]
  match name with
  | "schema" => ["id", "version", "targetNamespace", "elementFormDefault", "attributeFormDefault",
      "blockDefault", "finalDefault"]
  | "import" => ["id", "namespace", "schemaLocation"]
  | "element" =>
    ["id", "name", "type", "default", "fixed", "nillable", "block"] ++
      if isTop then ["abstract", "final", "substitutionGroup"] else "ref" :: "form" :: particle
  | "complexType" =>
    ["id", "mixed"] ++ if isTop then ["name", "abstract", "final", "block"] else []
  | "simpleContent" => ["id"]
  | "complexContent" => ["id", "mixed"]
  | "extension" => ["id", "base"]
  | "restriction" => ["id", "base"]
  | "sequence" => "id" :: particle
  | "choice" => "id" :: particle
  | "all" => "id" :: particle
  | "any" => ["id", "namespace", "processContents"] ++ particle
  | "anyAttribute" => ["id", "namespace", "processContents"]
  | "group" => if isTop then ["id", "name"] else "id" :: "ref" :: particle
  | "attributeGroup" => if isTop then ["id", "name"] else ["id", "ref"]
  | "attribute" =>
    ["id", "name", "type", "default", "fixed"] ++ if isTop then [] else ["ref", "use", "form"]
  | "simpleType" => "id" :: if isTop then ["name", "final"] else []
  | "list" => ["id", "itemType"]
  | "union" => ["id", "memberTypes"]
  | "notation" => ["id", "name", "public", "system"]
  | "unique" => ["id", "name"]
  | "key" => ["id", "name"]
  | "keyref" => ["id", "name", "refer"]
  | "selector" => ["id", "xpath"]
  | "field" => ["id", "xpath"]
  | "annotation" => ["id"]
  | _ => if facetNames.contains name then ["id", "value", "fixed"] else []

/-- What a schema declares at its top. -/
structure Declared where
  uri : Option String
  simpleTypes : List String
  complexTypes : List String
  elements : List String
  attributes : List String
  groups : List String
  attributeGroups : List String

def trimSpace (s : String) : List Char := Text.trimBy Xml.isSpace s.toList

/-- A name, with white space around it or none. -/
def isNameValue (s : String) : Bool := Xml.isPlainName (trimSpace s)

/-- The namespace and the local name that a reference stands for; `none` where it stands for
nothing. -/
def resolve? (scope : List (String × String)) (s : String) : Option (Option String × String) :=
  match Xml.splitName? (trimSpace s) with
  | none => none
  | some ([], _) => some (scope.lookup "" |>.filter (· != ""), s)
  | some (qualifier, _) =>
    (scope.lookup (String.ofList qualifier)).map fun uri =>
      (some uri, String.ofList ((s.toList.dropWhile (· != ':')).drop 1))

/-- A reference leads to something of this schema, or to a built-in type. -/
def refers (d : Declared) (scope : List (String × String))
    (own builtin : List String) (s : String) :
    Bool :=
  match resolve? scope s with
  | none => false
  | some (uri, name) =>
    if uri == some schemaUri then builtin.contains name
    else uri == d.uri && own.contains name

def natural? (s : String) : Option Nat :=
  let cs := trimSpace s
  if cs.isEmpty || !cs.all Char.isDigit then none
  else some (Number.ofDigits (cs.map fun c => c.toNat - 48))

def occursLimit : Nat := 1073741824

/-- The bounds of a part are numbers in order; none is left out by both being zero. -/
def occursWell (n : Node) : Bool :=
  match natural? ((n.attribute? "minOccurs").getD "1") with
  | none => false
  | some least =>
    match (n.attribute? "maxOccurs").getD "1" with
    | "unbounded" => true
    | s =>
      match natural? s with
      | none => false
      | some most =>
        most ≤ occursLimit && ((least == 0 && most == 0) || (1 ≤ most && least ≤ most))

def isTruth (s : String) : Bool :=
  ["true", "false", "1", "0"].contains (String.ofList (trimSpace s))

/-- The value of a facet has the form that the facet asks for. It is not compared with those of
other facets. -/
def facetWell (n : Node) (name : String) : Bool :=
  match n.attribute? "value" with
  | none => false
  | some value =>
    if name == "pattern" then Pattern.isPattern value
    else if ["length", "minLength", "maxLength", "fractionDigits"].contains name then
      (natural? value).isSome
    else if name == "totalDigits" then (natural? value).any (0 < ·)
    else if name == "whiteSpace" then ["preserve", "replace", "collapse"].contains value
    else true

/-- An attribute, if it is there, has a value of some form. -/
def attributeWell (n : Node) (name : String) (p : String → Bool) : Bool :=
  (n.attribute? name).all p

/-- The names of the elements in a part; text other than white space counts as a strange name. -/
def contentNames (n : Node) : List String :=
  n.content.filterMap fun
    | .element tag _ _ _ => some (if tag.uri == some schemaUri then tag.localPart else "")
    | .text chars => if chars.toList.all Xml.isSpace then none else some ""
    | .instruction _ => none

/-- The values of an attribute of the parts in a part that have a name. -/
def namesIn (n : Node) (part : String) : List String :=
  (n.childrenNamed part).filterMap (·.attribute? "name")

def refersWell (d : Declared) (scope : List (String × String)) (n : Node) (around name : String) :
    Bool :=
  let simple := refers d scope d.simpleTypes (builtinTypes.filter (· != "anyType"))
  let any := refers d scope (d.simpleTypes ++ d.complexTypes) builtinTypes
  match name with
  | "element" => attributeWell n "type" any &&
      attributeWell n "ref" (refers d scope d.elements []) &&
      attributeWell n "substitutionGroup" (refers d scope d.elements [])
  | "attribute" => attributeWell n "type" simple &&
      attributeWell n "ref" (refers d scope d.attributes [])
  | "restriction" => attributeWell n "base" (if around == "simpleType" then simple else any)
  | "extension" => attributeWell n "base" any
  | "group" => attributeWell n "ref" (refers d scope d.groups [])
  | "attributeGroup" => attributeWell n "ref" (refers d scope d.attributeGroups [])
  | "list" => attributeWell n "itemType" simple
  | _ => true

/-- A part that is named is named by a name, and one that is told elsewhere has no name. -/
def namedWell (n : Node) (isTop : Bool) (name : String) : Bool :=
  let hasName := (n.attribute? "name").isSome
  let hasRef := (n.attribute? "ref").isSome
  attributeWell n "name" isNameValue &&
  match name with
  | "element" => if isTop then hasName else hasName != hasRef
  | "attribute" =>
    (if isTop then hasName else hasName != hasRef) && n.attribute? "name" != some "xmlns"
  | "group" => if isTop then hasName else hasRef
  | "attributeGroup" => if isTop then hasName else hasRef
  | "complexType" => !isTop || hasName
  | "simpleType" => !isTop || hasName
  | _ => true

def shapedWell (n : Node) (around name : String) : Bool :=
  let typed := (n.attribute? "type").isSome
  let names := contentNames n
  match name with
  | "element" => !(typed && (names.contains "simpleType" || names.contains "complexType")) &&
      !((n.attribute? "default").isSome && (n.attribute? "fixed").isSome)
  | "attribute" => !(typed && names.contains "simpleType") &&
      !((n.attribute? "default").isSome && (n.attribute? "fixed").isSome) &&
      attributeWell n "use" (["optional", "required", "prohibited"].contains ·)
  | "simpleType" => names.any (["restriction", "list", "union"].contains ·)
  | "simpleContent" => names.any (["restriction", "extension"].contains ·)
  | "complexContent" => names.any (["restriction", "extension"].contains ·)
  | "extension" => (n.attribute? "base").isSome
  | "restriction" =>
    if around == "simpleType" then (n.attribute? "base").isSome != names.contains "simpleType"
    else (n.attribute? "base").isSome
  | "complexType" => attributeWell n "mixed" isTruth
  | _ => true

/-- The steps of a part. The type of content that is simple or derived holds nothing else. -/
def contentSteps (n : Node) (around name : String) : List Step :=
  if name == "restriction" || name == "extension" then derivationSteps around name
  else if name == "complexType" &&
      (contentNames n).any (["simpleContent", "complexContent"].contains ·) then
    [note, once ["simpleContent", "complexContent"]]
  else stepsOf name

/-- A part by itself, without the parts in it. -/
def partWell (d : Declared) (scope : List (String × String)) (n : Node) (around name : String) :
    Bool :=
  let isTop := around == "schema"
  n.attributes.all (fun a =>
    match a.name.uri with
    | none => (attributesOf isTop name).contains a.name.localPart
    | some uri => uri != schemaUri) &&
  follows (contentSteps n around name) (contentNames n) &&
  namedWell n isTop name && refersWell d scope n around name && shapedWell n around name &&
  allDistinct (namesIn n "attribute") && occursWell n &&
  (!facetNames.contains name || facetWell n name)

mutual
/-- A part and all parts in it. What annotations hold is free. -/
def partsWell (d : Declared) (scope : List (String × String)) (around : String) : Node → Bool
  | .element tag bindings attributes content =>
    let scope := bindings ++ scope
    partWell d scope (.element tag bindings attributes content) around tag.localPart &&
      (tag.localPart == "annotation" || allPartsWell d scope tag.localPart content)
  | _ => true
def allPartsWell (d : Declared) (scope : List (String × String)) (around : String) :
    List Node → Bool
  | [] => true
  | n :: rest => partsWell d scope around n && allPartsWell d scope around rest
end

def Declared.ofSchema (n : Node) : Declared :=
  ⟨n.attribute? "targetNamespace", namesIn n "simpleType", namesIn n "complexType",
    namesIn n "element", namesIn n "attribute", namesIn n "group", namesIn n "attributeGroup"⟩

/-- The attributes of a schema that have values of a certain form. -/
def headWell (n : Node) : Bool :=
  let isForm (s : String) : Bool := ["qualified", "unqualified"].contains s
  attributeWell n "elementFormDefault" isForm && attributeWell n "attributeFormDefault" isForm &&
  attributeWell n "targetNamespace" fun s => s != "" && Uri.isReference s

def isSchema (n : Node) : Bool :=
  let d := Declared.ofSchema n
  n.tag?.any (fun tag => tag.uri == some schemaUri && tag.localPart == "schema") && headWell n &&
  allDistinct (d.simpleTypes ++ d.complexTypes) && allDistinct d.elements &&
  allDistinct d.attributes && allDistinct d.groups && allDistinct d.attributeGroups &&
  partsWell d [] "" n

/-- Octets are a document that is reported as a schema. -/
def isSchemaText (octets : List UInt8) : Bool := (Xml.ofOctets? octets).any isSchema

def report (valid : Bool) : List String :=
  if valid then ["✅ Valid XSD Schema."] else ["❌ Errors found in XSD Schema:", "- <detail>"]

end SchemaLoom.Xsd
