import SchemaLoom.Choice
import SchemaLoom.Files.Store
import SchemaLoom.Text.Line
import SchemaLoom.Text.Utf8
import SchemaLoom.Yaml.Value

/-!
Configuration: the choices that a conversion runs with, read from a mapping of YAML over defaults.
What reads the YAML is given from outside.
-/
namespace SchemaLoom
open Files (Store AccessFault)
open Profile (Level)

/-- The choices of a conversion. The output directory is kept as it was written; whether it names a
directory shows when it is used. -/
structure Config where
  outputDir : Yaml.Value
  draft : JsonSchema.Draft
  mode : Xsd.MergeMode
  shareAcrossNames : Bool
  validateOutput : Bool
  writeYaml : Bool
  level : Level

def Config.default : Config := ⟨.null, .draft07, .permissive, true, true, false, .warning⟩

/-- Why there is no configuration. -/
inductive ConfigError where
  | unreadable (name : String) (fault : AccessFault)
  /-- The file is no YAML; what exactly is wrong with it is not told. -/
  | malformed (name : String)
  | noMapping (name : String)
  | unknownKeys (keys : List String)
  /-- Unknown keys of which some are no text of characters, each by the numbers of its
  characters. -/
  | brokenKeys (keys : List (List Nat))
  /-- A key does not have one of the values it can have. -/
  | noChoice (key : String) (choices : List String)
  /-- A key is neither true nor false. -/
  | noFlag (key : String)

namespace ConfigError

def message : ConfigError → String
  | unreadable name fault => "Cannot read configuration '" ++ name ++ "': " ++ fault.message
  | malformed name => "Invalid YAML in '" ++ name ++ "': <detail>"
  | noMapping name => "Configuration '" ++ name ++ "' must be a mapping"
  | unknownKeys keys => "Unknown configuration keys: " ++ ", ".intercalate keys
  | brokenKeys keys =>
    "Unknown configuration keys: " ++ ", ".intercalate (keys.map Text.shownCodes)
  | noChoice key choices => key ++ " must be one of " ++ ", ".intercalate choices
  | noFlag key => key ++ " must be true or false"

/-- The numbers of the characters of the message, as it would be shown. -/
def codes : ConfigError → List Nat
  | brokenKeys keys =>
    Text.codesOf "Unknown configuration keys: " ++ List.intercalate (Text.codesOf ", ") keys
  | e => Text.codesOf e.message

/-- A message without octets cannot be shown. -/
def isShown : ConfigError → Bool
  | brokenKeys _ => false
  | _ => true

/-- What is said of keys that are not known, all of them texts. -/
def ofUnknown (unknown : List Yaml.Value) : ConfigError :=
  let names := unknown.filterMap fun
    | .string s => some s
    | _ => none
  if names.length == unknown.length then .unknownKeys (names.mergeSort fun a b => a ≤ b)
  else
    .brokenKeys ((unknown.filterMap (·.codes?)).mergeSort fun a b =>
      !List.lex b a fun c d => c < d)

end ConfigError

/-- What can go wrong with a configuration, the reading of its characters, values and keys
included. -/
inductive ConfigFault where
  | invalid (e : ConfigError)
  /-- The name of the file cannot be one. -/
  | strangeFile (fault : AccessFault)
  | octets (fault : Text.Utf8Fault)
  | value (fault : Yaml.Fault)
  /-- An unknown key is no text. -/
  | strangeKey (kind : String)
  /-- Unknown keys have no order. -/
  | unordered (key other : Yaml.Value)
  /-- A collection stands where one of a set of names is looked up. -/
  | strangeChoice (kind : String)
  /-- A value whose text is looked up holds a number that is too long to be written. -/
  | longNumber
  /-- A setting that is given by name does not exist. -/
  | strangeSetting (name : String)

/-- Why a key cannot be compared with another one. -/
def unorderedText : Yaml.Value → Yaml.Value → String
  | .dateTime _, .dateTime _ => "can't compare offset-naive and offset-aware datetimes"
  | .dateTime _, .date _ => "can't compare datetime.datetime to datetime.date"
  | .date _, .dateTime _ => "can't compare datetime.datetime to datetime.date"
  | key, other =>
    "'<' not supported between instances of '" ++ key.fullKindName ++ "' and '" ++
      other.fullKindName ++ "'"

def ConfigFault.message : ConfigFault → String
  | invalid e => e.message
  | strangeFile fault => fault.message
  | octets fault => fault.message
  | value fault => fault.message
  | strangeKey kind => "sequence item 0: expected str instance, " ++ kind ++ " found"
  | unordered key other => unorderedText key other
  | strangeChoice kind => "unhashable type: '" ++ kind ++ "'"
  | longNumber =>
    "Exceeds the limit (4300 digits) for integer string conversion; " ++
      "use sys.set_int_max_str_digits() to increase the limit"
  | strangeSetting name => "Config.__init__() got an unexpected keyword argument '" ++ name ++ "'"

namespace Config

def keys : List String := [
  "output_dir", "json_schema_draft", "merge_mode", "share_types_across_names", "validate_output",
  "write_yaml", "log_level"]

/-- The file that is read where none is named. -/
def defaultName : String := "profile2schema.yaml"

/-- The text of a value that is one. -/
def textOf? : Yaml.Value → Option String
  | .string s => some s
  | _ => none

/-- The choice that a key names, if it is given at all. Some values cannot even be looked up. -/
def choice (entries : List (Yaml.Value × Yaml.Value)) (key : String) (default : α)
    (strange? : Yaml.Value → Option ConfigFault) (find : String → Option α) (names : List String) :
    Except ConfigFault α :=
  match Yaml.Value.member? entries key with
  | none => .ok default
  | some v =>
    match strange? v with
    | some fault => .error fault
    | none =>
      match (textOf? v).bind find with
      | some choice => .ok choice
      | none => .error (.invalid (.noChoice key names))

def flag (entries : List (Yaml.Value × Yaml.Value)) (key : String) (default : Bool) :
    Except ConfigFault Bool :=
  match Yaml.Value.member? entries key with
  | none => .ok default
  | some (.bool b) => .ok b
  | some _ => .error (.invalid (.noFlag key))

/-- The draft is looked up by its name, which no collection can be. -/
def draftOf (entries : List (Yaml.Value × Yaml.Value)) : Except ConfigFault JsonSchema.Draft :=
  choice entries "json_schema_draft" default.draft
    (fun v => if v.isCollection then some (.strangeChoice v.kindName) else none)
    JsonSchema.Draft.ofName? (JsonSchema.Draft.all.map (·.name))

def modeOf (entries : List (Yaml.Value × Yaml.Value)) : Except ConfigFault Xsd.MergeMode :=
  choice entries "merge_mode" default.mode (fun _ => none) Xsd.MergeMode.ofName?
    (Xsd.MergeMode.all.map (·.name))

/-- The level is looked up by the text of its value in capitals; only text itself has the text of a
level. -/
def levelOf (entries : List (Yaml.Value × Yaml.Value)) : Except ConfigFault Level :=
  choice entries "log_level" default.level
    (fun v => if v.isWritable then none else some .longNumber)
    (fun s => Level.ofName? (Text.upper s)) (Level.all.map (·.name))

def ofEntries (entries : List (Yaml.Value × Yaml.Value)) : Except ConfigFault Config := do
  let outputDir := (Yaml.Value.member? entries "output_dir").getD default.outputDir
  let draft ← draftOf entries
  let mode ← modeOf entries
  let level ← levelOf entries
  let shareAcrossNames ← flag entries "share_types_across_names" default.shareAcrossNames
  let validateOutput ← flag entries "validate_output" default.validateOutput
  let writeYaml ← flag entries "write_yaml" default.writeYaml
  return ⟨outputDir, draft, mode, shareAcrossNames, validateOutput, writeYaml, level⟩

def ofSettings (settings : List (String × Yaml.Value)) : Except ConfigFault Config :=
  match settings.find? fun s => !keys.contains s.1 with
  | some (name, _) => .error (.strangeSetting name)
  | none => ofEntries (settings.map fun (k, v) => (.string k, v))

def comparable : Yaml.Value → Yaml.Value → Bool
  | .dateTime s, .dateTime t => s.offset.isSome == t.offset.isSome
  | a, b =>
    (a.whole?.isSome || a.kindName == "float") && (b.whole?.isSome || b.kindName == "float") ||
      a.kindName == b.kindName

def quotient? : Yaml.Value → Option (Int × Nat)
  | .float x => x.toRational?
  | v => v.whole?.map (·, 1)

def isInfinite (negative : Bool) : Yaml.Value → Bool
  | .float x => x == .infinite negative
  | _ => false

def lessNumber (a b : Yaml.Value) : Bool :=
  match quotient? a, quotient? b with
  | some (m, p), some (n, q) => m * q < n * p
  | some _, none => isInfinite false b
  | none, some _ => isInfinite true a
  | none, none => isInfinite true a && isInfinite false b

/-- What is said of unknown keys that are not all texts: they cannot be put in order, or the least
of them is no text. -/
def strangeKeys (unknown : List Yaml.Value) : ConfigFault :=
  match unknown with
  | [] => .strangeKey ""
  | first :: rest =>
    match rest.find? fun v => !comparable first v with
    | some v => .unordered v first
    | none =>
      let least := rest.foldl (fun least v => if lessNumber v least then v else least) first
      .strangeKey least.fullKindName

/-- The keys of a mapping that are no names of settings. -/
def unknownKeys (entries : List (Yaml.Value × Yaml.Value)) : List Yaml.Value :=
  (entries.map (·.1)).filter fun k => !(textOf? k).any fun s => keys.contains s

/-- The configuration of a value that a file holds. An absent value stands for an empty mapping. -/
def ofValue (name : String) (v : Yaml.Value) : Except ConfigFault Config :=
  if v.isAbsent then .ok default
  else
    match v with
    | .mapping entries =>
      let unknown := unknownKeys entries
      if unknown.isEmpty then ofEntries entries
      else if unknown.all (·.isText) then .error (.invalid (.ofUnknown unknown))
      else .error (strangeKeys unknown)
    | _ => .error (.invalid (.noMapping name))

/-- The configuration of a file. An end inside of a character is told with the position that the
character has in what is left. -/
def ofOctets (loader : Yaml.Loader) (name : String) (octets : List UInt8) :
    Except ConfigFault Config :=
  match Text.ofUtf8 octets with
  | .error fault =>
    .error (.octets (if fault.reason == .unexpectedEnd then { fault with start := 0 } else fault))
  | .ok cs =>
    match loader (Text.plainLines cs) with
    | .ok v => ofValue name v
    | .error .malformed => .error (.invalid (.malformed name))
    | .error fault => .error (.value fault)

/-- The configuration of a named file, or of the usual one if there is one. -/
def load (loader : Yaml.Loader) (files : Store) (name : Option String) :
    Except ConfigFault Config :=
  match name with
  | none => if files.holds defaultName then ofFile defaultName else .ok default
  | some name => ofFile name
where
  ofFile (name : String) : Except ConfigFault Config :=
    match files.read name with
    | .ok octets => ofOctets loader name octets
    | .error fault =>
      .error (if fault.reason == .nullCharacter then .strangeFile fault
        else .invalid (.unreadable name fault))

end Config
end SchemaLoom
