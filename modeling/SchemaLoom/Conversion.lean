import SchemaLoom.Config
import SchemaLoom.JsonSchema.Check
import SchemaLoom.JsonSchema.Convert
import SchemaLoom.Operation
import SchemaLoom.Sample.Document
import SchemaLoom.Sample.Json
import SchemaLoom.Xsd.Check
import SchemaLoom.Yaml.Writer

/-!
Running an operation on a file: the profile is read, converted and written, and what is worth saying
is said. All that a run does to files and all that it says are part of its outcome.
-/
namespace SchemaLoom
open Files (Store AccessFault)
open Profile (Notice Level Event ElementProfile ObjectProfile ConversionError)

/-- Why a run ends without a result. -/
inductive RunFault where
  | unknownOperation (code : String)
  | access (fault : AccessFault)
  /-- The input is no document. -/
  | noDocument
  | conversion (e : ConversionError)
  | directory (d : StrangeDirectory)
  /-- A schema that was written cannot be read again. -/
  | reading (fault : JsonSchema.TextFault)

def RunFault.message : RunFault → String
  | unknownOperation code => "Unknown operation: " ++ code
  | access fault => fault.message
  | noDocument => ""
  | conversion e => e.message
  | directory d => d.message
  | reading fault => fault.message

/-- The files, and what has been said so far: text for the reader and notices, the latest first. The
level is the least that a notice needs to be worth a line. -/
structure Session where
  files : Store
  said : List String
  notices : List Notice
  level : Level

def Session.start (files : Store) : Session := ⟨files, [], [], Config.default.level⟩

def Session.transcript (s : Session) : String := String.join s.said.reverse

/-- The notices that are worth a line, in order. -/
def Session.noticed (s : Session) : List Notice :=
  (s.notices.filter fun n => s.level.weight ≤ n.level.weight).reverse

/-- An activity on a session, which may fail. What was done before a failure stays done. -/
abbrev Act (ε : Type) := ExceptT ε (StateM Session)

namespace Act

def say (text : String) : Act ε Unit := modify fun s => { s with said := text :: s.said }

def sayLine (line : String) : Act ε Unit := say (line ++ "\n")

def note (notices : List Notice) : Act ε Unit :=
  modify fun s => { s with notices := notices.reverse ++ s.notices }

def ofExcept (f : α → ε) (r : Except α β) : Act ε β :=
  match r with
  | .ok b => return b
  | .error a => throw (f a)

def readFile (name : String) : Act RunFault (List UInt8) := do
  ofExcept .access ((← get).files.read name)

def writeFile (name : String) (text : String) : Act RunFault Unit := do
  let files ← ofExcept .access ((← get).files.write name text.toUTF8.toList)
  modify fun s => { s with files }

def makeDirectories (name : String) : Act RunFault Unit := do
  let (outcome, files) := (← get).files.makeDirectories name
  modify fun s => { s with files }
  ofExcept .access outcome

end Act

open Act

/-- Whether a named file holds a profile. One that cannot be read holds none. -/
def isProfileFile (files : Store) (name : String) : Bool :=
  match files.read name with
  | .ok octets => (Xml.ofOctets? octets).any Profile.isProfile
  | .error _ => false

/-- How many types of a schema are simple. -/
def simpleCount (s : Xsd.Schema) : Nat := (s.types.filter fun t => !t.body.isComplex).length

/-- Compiles the profile of XML in a document and writes its schema. -/
def writeXsd (c : Config) (document : Xml.Node) (output : String) : Act RunFault Unit := do
  sayLine "\nCreate XSD schema"
  let source ← ofExcept (fun f => .conversion (.malformed f)) (Profile.Source.ofDocument document)
  let (result, context) := Xsd.run (.standard c.mode c.shareAcrossNames) source.profile
  note (context.events.reverse.flatMap (Event.notices source.holder))
  let schema ← ofExcept .conversion result
  let simple := simpleCount schema
  sayLine ("  > elements: " ++ Number.natText schema.roots.length)
  sayLine ("  > complexType: " ++ Number.natText (schema.types.length - simple))
  sayLine ("  > simpleType: " ++ Number.natText simple)
  writeFile output schema.text
  sayLine ("✅ XSD file written in '" ++ output ++ "'")
  if c.validateOutput then
    (Xsd.report (Xsd.isSchemaText (← readFile output))).forM fun line => sayLine line

/-- Writes the sample of the profile of XML in a document. -/
def writeXmlSample (document : Xml.Node) (output : String) : Act RunFault Unit := do
  let source ← ofExcept (fun f => .conversion (.malformed f)) (Profile.Source.ofDocument document)
  let (result, events) := Sample.run source.profile
  note (events.reverse.flatMap (Event.notices source.holder))
  let sample ← ofExcept .conversion result
  writeFile output sample.document
  sayLine ("✅ Sample written in '" ++ output ++ "'")

def writeJson (v : Json.Value) (output : String) : Act RunFault Unit := do
  writeFile output v.pretty
  sayLine ("✅ JSON representation written in '" ++ output ++ "'")

/-- Says what is wrong with the schema of JSON that a file holds. -/
def checkWritten (output : String) : Act RunFault Unit := do
  let found ← ofExcept .reading (JsonSchema.checkOctets (← readFile output))
  (JsonSchema.report found).forM fun line => sayLine line

/-- Writes the schema of the profile of JSON in a document, and its copy in YAML if that is
chosen. -/
def writeJsonSchema (c : Config) (document : Xml.Node) (output : String) : Act RunFault Unit := do
  sayLine "\nCreate JSON schema"
  sayLine ("  - version: " ++ c.draft.name)
  sayLine ("  - metaschema: " ++ c.draft.uri)
  let profile ← ofExcept (fun f => .conversion (.malformed f)) (ObjectProfile.ofDocument document)
  if profile.isNone then note [.noObject]
  let schema := JsonSchema.schemaOf c.draft profile
  writeJson schema output
  if c.validateOutput then checkWritten output
  if c.writeYaml then
    writeFile (yamlName output) (Yaml.write schema)
    sayLine ("✅ JSON representation converted to YAML and written in '" ++ yamlName output ++ "'")

/-- Writes the sample of the profile of JSON in a document. -/
def writeJsonSample (document : Xml.Node) (output : String) : Act RunFault Unit := do
  let sample ← ofExcept .conversion (Sample.jsonOf document)
  writeJson sample output

/-- Writes what an operation makes of a document. -/
def writeResult (c : Config) (document : Xml.Node) (output : String) : Operation → Act RunFault Unit
  | .xsd => writeXsd c document output
  | .xmlSample => writeXmlSample document output
  | .jsonSchema => writeJsonSchema c document output
  | .jsonSample => writeJsonSample document output

/-- Runs an operation on an input file. The answer is the name of the file that was written. -/
def convertFile (c : Config) (input : String) (op : Operation) : Act RunFault String := do
  let place := Files.parentName input
  sayLine "\nProfile"
  sayLine ("  - path: " ++ (if place == "" then "." else place))
  sayLine ("  - filename: " ++ Files.baseName input)
  sayLine ("  - operation: " ++ op.code)
  let octets ← readFile input
  let document ← match Xml.ofOctets? octets with
    | some document => pure document
    | none => throw .noDocument
  let output ← ofExcept .directory (outputName input c.outputDir op)
  match ← ofExcept .directory (chosenDirectory c.outputDir) with
  | some directory => makeDirectories directory
  | none => pure ()
  writeResult c document output op
  return output

/-- Runs the operation of a code on an input file. -/
def runOperation (c : Config) (input code : String) : Act RunFault String :=
  match Operation.ofCode? code with
  | some op => convertFile c input op
  | none => throw (.unknownOperation code)

end SchemaLoom
