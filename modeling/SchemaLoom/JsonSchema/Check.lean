import SchemaLoom.Json.Reader
import SchemaLoom.JsonSchema.Metaschema
import SchemaLoom.Text.Line
import SchemaLoom.Text.Utf8

/-!
Checking a schema against the metaschema of its draft. The draft is known by a part of what the
member `$schema` holds.
-/
namespace SchemaLoom.JsonSchema
open Json (Value)

/-- A value that no draft can be chosen for. -/
inductive SchemaFault where
  /-- The schema is no object. -/
  | noObject (kind : String)
  /-- The draft is named by a value without parts. -/
  | noParts (kind : String)
  deriving DecidableEq, Repr

def SchemaFault.message : SchemaFault → String
  | noObject kind => "'" ++ kind ++ "' object has no attribute 'get'"
  | noParts kind => "argument of type '" ++ kind ++ "' is not iterable"

/-- What a draft is known by, in the order of asking. -/
def marks : List (String × Draft) := [
  ("draft-04", .draft04), ("draft-06", .draft06), ("draft-07", .draft07),
  ("2019-09", .draft2019), ("2020-12", .draft2020)]

def occursIn (part whole : List Char) : Bool :=
  match whole with
  | [] => part.isEmpty
  | c :: rest => part.isPrefixOf (c :: rest) || occursIn part rest

/-- A value has a text as a part: as a piece of text, as an item or as the name of a member. -/
def hasPart (part : String) : Value → Bool
  | .string s => occursIn part.toList s.toList
  | .array items => items.any fun v => v.same (.string part)
  | .object members => members.any (·.1 == part)
  | _ => false

/-- The draft of a schema; the seventh one where none is named. -/
def draftFor (v : Value) : Except SchemaFault Draft :=
  match v with
  | .object _ =>
    let version := (v.member? "$schema").getD (.string "")
    match version with
    | .string _ | .array _ | .object _ =>
      .ok (((marks.find? fun m => hasPart m.1 version).map (·.2)).getD .draft07)
    | v => .error (.noParts v.kindName)
  | v => .error (.noObject v.kindName)

def pathLe : List String → List String → Bool
  | [], _ => true
  | _ :: _, [] => false
  | a :: as, b :: bs => a < b || (a == b && pathLe as bs)

/-- What is wrong with a schema, sorted by where it is. -/
def check (v : Value) : Except SchemaFault (List Finding) :=
  (draftFor v).map fun d => (findings d.rules v).mergeSort fun a b => pathLe a.path b.path

def Finding.line (f : Finding) : String :=
  "- Path '" ++ (if f.path.isEmpty then "(root)" else ".".intercalate f.path) ++ "': " ++ f.message

def report (found : List Finding) : List String :=
  if found.isEmpty then ["✅ Valid JSON Schema."]
  else "❌ Errors found in JSON Schema:" :: found.map Finding.line

/-- Why a text cannot be checked. -/
inductive TextFault where
  | octets (fault : Text.Utf8Fault)
  | text (fault : Json.Fault) (chars : List Char)
  | schema (fault : SchemaFault)

def TextFault.message : TextFault → String
  | octets fault => fault.message
  | text fault chars => fault.message chars
  | schema fault => fault.message

/-- What is wrong with the schema that octets hold. -/
def checkOctets (octets : List UInt8) : Except TextFault (List Finding) := do
  let cs ← (Text.ofUtf8 octets).mapError .octets
  let cs := Text.plainLines cs
  let v ← (Json.ofChars cs).mapError fun f => .text f cs
  (check v).mapError .schema

end SchemaLoom.JsonSchema
