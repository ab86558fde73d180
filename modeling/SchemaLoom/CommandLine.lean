import SchemaLoom.Conversion

/-!
The command line: an input file, an operation and a configuration file. Without an operation a menu
asks for one. The outcome is an exit code.
-/
namespace SchemaLoom
open Files (Store)
open Act

/-- What the program runs on. -/
structure Host where
  /-- What reads YAML. -/
  loader : Yaml.Loader
  /-- The files that a run leaves for which there is not enough room, in memory or in the depth of
  calls; `none` where there is. -/
  exhausted : Config → String → Operation → Store → Option Store

/-- A host that has room for every run. -/
def Host.ample (loader : Yaml.Loader) : Host := ⟨loader, fun _ _ _ _ => none⟩

/-- What ends the program without an exit code. -/
inductive Escape where
  | config (fault : ConfigFault)
  | run (fault : RunFault)
  /-- What is wrong with the configuration cannot be shown. -/
  | unshown (e : ConfigError)
  /-- There is not enough room for the run. -/
  | exhausted
  /-- The input ends while the menu asks. -/
  | endOfInput

def Escape.message : Escape → String
  | config fault => fault.message
  | run fault => fault.message
  | unshown e => Text.encodingText (Text.codesOf "❌ " ++ e.codes)
  | exhausted => ""
  | endOfInput => "EOF when reading a line"

/-- A failed run is told with its exit code unless it comes from the tree that was to be written,
from the choice of a directory or from a name that no file can have. -/
def isTold : RunFault → Bool
  | .access fault => fault.reason != .nullCharacter
  | .noDocument => true
  | .conversion (.malformed _) => true
  | .conversion (.conflict ..) => true
  | _ => false

def menuLine (position : Nat) (op : Operation) : String :=
  let digits := Nat.toDigits 10 position
  String.ofList (List.replicate (4 - digits.length) ' ' ++ digits) ++ ": " ++ op.code

/-- The operation of an answer: its position in the menu. -/
def answered? (line : String) : Option Operation :=
  match Number.ofText? line with
  | some (.ofNat n) => Operation.all[n]?
  | _ => none

def ask : List String → Act Escape Operation
  | [] => do
    say "Select operation: "
    throw .endOfInput
  | line :: rest => do
    say "Select operation: "
    match answered? line with
    | some op => return op
    | none => do
      sayLine "This is not a valid operation."
      ask rest

/-- The menu, and the operation chosen from it. -/
def chooseOperation (lines : List String) : Act Escape Operation := do
  let rule := String.ofList (List.replicate 30 '-')
  sayLine rule
  Operation.all.zipIdx.forM fun (op, position) => sayLine (menuLine position op)
  sayLine rule
  ask lines

/-- What the program is given. -/
structure Invocation where
  program : String
  arguments : List String
  /-- The text that the menu reads its answers from. -/
  input : String
  /-- The full name of the current place. -/
  place : String

/-- Tells how a run ended. -/
def conclude (i : Invocation) : Except RunFault String → Act Escape Nat
  | .ok output => do
    sayLine ("\nGenerated: " ++ Files.fullName i.place output)
    return 0
  | .error fault =>
    if isTold fault then do
      sayLine ("❌ ERROR: " ++ fault.message)
      return 5
    else throw (.run fault)

/-- Runs the operation of a code, if there is one. -/
def runCode (host : Host) (i : Invocation) (c : Config) (inputName code : String) :
    Act Escape Nat := do
  match Operation.ofCode? code with
  | none =>
    sayLine ("❌ Unknown operation: " ++ code)
    return 4
  | some op =>
    let session ← get
    match host.exhausted c inputName op session.files with
    | some files =>
      set { session with files }
      throw .exhausted
    | none =>
      let (result, session) := (runOperation c inputName code).run session
      set session
      conclude i result

def runConfigured (host : Host) (i : Invocation) (c : Config) (inputName : String)
    (code : Option String) : Act Escape Nat := do
  let files := (← get).files
  if !files.holdsFile inputName then
    sayLine ("❌ Input file not found: " ++ inputName)
    return 3
  if !isProfileFile files inputName then
    sayLine "❌ <inputfile> is not a valid Boomi profile"
    return 3
  let code ← match code with
    | some code => pure (Text.lower code)
    | none => (·.code) <$> chooseOperation (Text.linesOf i.input)
  runCode host i c inputName code

/-- Tells what is wrong with the configuration, if that can be shown. -/
def refuseConfig (e : ConfigError) : Act Escape Nat :=
  if e.isShown then do
    sayLine ("❌ " ++ e.message)
    return 2
  else throw (.unshown e)

/-- The program: its exit code, unless something unforeseen ends it. -/
def runProgram (host : Host) (i : Invocation) : Act Escape Nat := do
  match i.arguments with
  | [] =>
    sayLine ("usage: " ++ i.program ++ " <inputfile> [operation] [configfile]\n")
    return 2
  | inputName :: others =>
    match Config.load host.loader (← get).files others[1]? with
    | .error (.invalid e) => refuseConfig e
    | .error fault => throw (.config fault)
    | .ok c =>
      modify fun s => { s with level := c.level }
      runConfigured host i c inputName others.head?

/-- The files that are read first: the configuration and the input. -/
def Invocation.sources (i : Invocation) : List String :=
  match i.arguments with
  | [] => []
  | input :: others => [others[1]?.getD Config.defaultName, input]

/-- The files and the directory that a run may write, the files read first being known. -/
def Invocation.targets (loader : Yaml.Loader) (i : Invocation) (files : Store) : List String :=
  match i.arguments with
  | [] => []
  | input :: others =>
    match Config.load loader files others[1]? with
    | .error _ => []
    | .ok c =>
      let outputs := Operation.all.filterMap fun op => (outputName input c.outputDir op).toOption
      (chosenDirectory c.outputDir).toOption.join.toList ++ outputs ++ outputs.map yamlName

end SchemaLoom
