import SchemaLoom.CommandLine
import SchemaLoom.Yaml.Meaning

/-!
The program on a real file system: the files that a run may read or write are looked up, the run
itself is computed, and what it says and changes is carried out.
-/
namespace SchemaLoom
open Files (Store)

/-- Looks up one name and adds what is there. -/
def lookUp (t : Store) (name : String) : IO Store := do
  let file := System.mkFilePath [name]
  if ← file.isDir then return t.plant name .directory
  if ← file.pathExists then return t.plant name (.file (← IO.FS.readBinFile name).toList)
  return t

/-- Looks up a name and all that lie above it. -/
def survey (t : Store) (name : String) : IO Store := do
  let parts := Files.segments name
  let above := (List.range parts.length).map fun k => "/".intercalate (parts.take (k + 1))
  (above.filter (· != "")).foldlM lookUp t

/-- Makes the directories and writes the files that a run has added or changed. -/
def carryOut (old new : Store) : IO Unit := do
  for (place, entry) in new.entries do
    if entry == .directory && (old.entry? place).isNone then
      IO.FS.createDirAll ("/".intercalate place)
  for (name, octets) in Store.changedSince old new do
    IO.FS.writeBinFile name ⟨octets.toArray⟩

/-- Runs the program, asking for one more line of input as often as the menu needs it. `shown` is
how much of the transcript is on the screen. -/
partial def converse (i : Invocation) (files : Store) (shown : Nat) : IO UInt32 := do
  let (result, session) := (runProgram (.ample Yaml.ofChars) i).run (.start files)
  IO.print (session.transcript.drop shown)
  (← IO.getStdout).flush
  let shown := session.transcript.length
  let line ← match result with
    | .error .endOfInput => (← IO.getStdin).getLine
    | _ => pure ""
  if line != "" then return ← converse { i with input := i.input ++ line } files shown
  carryOut files session.files
  session.noticed.forM fun n => IO.eprintln n.line
  match result with
  | .ok code => return code.toUInt32
  | .error e =>
    IO.eprintln e.message
    return 1

end SchemaLoom

def main (arguments : List String) : IO UInt32 := do
  let place := (← IO.currentDir).toString
  let i : SchemaLoom.Invocation := ⟨"profile2schema", arguments, "", place⟩
  let files ← i.sources.foldlM SchemaLoom.survey .empty
  let files ← (i.targets SchemaLoom.Yaml.ofChars files).foldlM SchemaLoom.survey files
  SchemaLoom.converse i files 0
