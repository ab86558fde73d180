import SchemaLoom.Json.Value
import SchemaLoom.Yaml.Node

/-!
Values of JSON written as YAML in ASCII: collections as blocks, empty ones in brackets, and text as
plain as it may be. Lines are broken at a blank once they are wider than eighty characters.
-/
namespace SchemaLoom.Yaml
namespace Writer

/-- What is written so far, the last character first, and where the pen stands: its column, whether
the last thing written is white space, and whether nothing but indentation is on the line. -/
structure Pen where
  written : List Char
  column : Nat
  spaced : Bool
  indenting : Bool

def width : Nat := 80

def levelWidth : Nat := 2

/-- A blank page: nothing is needed in front of the first thing. -/
def Pen.start : Pen := ⟨[], 0, true, true⟩

def Pen.put (p : Pen) (cs : List Char) : Pen :=
  { p with written := cs.reverse ++ p.written, column := p.column + cs.length }

def Pen.breakLine (p : Pen) : Pen := ⟨'\n' :: p.written, 0, true, true⟩

/-- Moves to an indentation, on a new line unless the pen can reach it on this one. -/
def Pen.indent (p : Pen) (column : Nat) : Pen :=
  let p :=
    if !p.indenting || column < p.column || (p.column == column && !p.spaced) then p.breakLine
    else p
  if p.column < column then
    { p.put (List.replicate (column - p.column) ' ') with spaced := true }
  else p

/-- A mark, with a blank in front where one is asked for and missing. -/
def Pen.mark (p : Pen) (mark : List Char) (apart spaced indenting : Bool) : Pen :=
  let p' := p.put (if p.spaced || !apart then mark else ' ' :: mark)
  { p' with spaced := spaced, indenting := p.indenting && indenting }

def Pen.inside (p : Pen) : Pen := { p with spaced := false, indenting := false }

/-! Scalars. -/

/-- Characters that a word of a plain scalar may be next to. -/
def isGap (c : Char) : Bool := c == '\t' || c == '\r' || isEnd c || c == ' ' || isBreak c

/-- What matters about a text when its style is chosen. -/
structure Features where
  /-- A character asks for an escape. -/
  special : Bool
  /-- The text would be taken for something else on its own. -/
  indicator : Bool
  multiline : Bool
  /-- Blanks or breaks stand at an end. -/
  loose : Bool
  /-- A blank follows a break. -/
  breakThenSpace : Bool
  /-- A break follows a blank. -/
  spaceThenBreak : Bool

def adjacent (p q : Char → Bool) : List Char → Bool
  | a :: b :: rest => (p a && q b) || adjacent p q (b :: rest)
  | _ => false

/-- A later character would be read as the end of a key or as a comment. -/
def hasInnerMark (before : Char) : List Char → Bool
  | [] => false
  | c :: rest =>
    let gapAfter := isGap (rest.head?.getD ' ')
    (c == ':' && gapAfter) || (c == '#' && isGap before) || hasInnerMark c rest

/-- The first characters would be read as a mark. -/
def hasFirstMark : List Char → Bool
  | [] => false
  | c :: rest =>
    let gapAfter := isGap (rest.head?.getD ' ')
    "#,[]\x7b\x7d&*!|>'\"%@\x60".toList.contains c || ("?:-".toList.contains c && gapAfter)

def featuresOf (cs : List Char) : Features :=
  let isSpace (c : Char) : Bool := c == ' '
  let isBreak' (c : Char) : Bool := isBreak c && c != '\r'
  let isLoose (c : Option Char) : Bool := c.any fun c => isSpace c || isBreak' c
  let mark := "---".toList.isPrefixOf cs || "...".toList.isPrefixOf cs || hasFirstMark cs ||
    match cs with
    | c :: rest => hasInnerMark c rest
    | [] => false
  { special := cs.any fun c => !(c == '\n' || (' ' ≤ c && c ≤ '~'))
    indicator := mark
    multiline := cs.any isBreak'
    loose := isLoose cs.head? || isLoose cs.getLast?
    breakThenSpace := adjacent isBreak' isSpace cs
    spaceThenBreak := adjacent isSpace isBreak' cs }

inductive Style where
  | plain
  | single
  | double
  deriving DecidableEq, Repr

/-- The style of a text. A key is on one line, and one without characters is quoted. -/
def styleOf (isKey : Bool) (text : String) : Style :=
  let cs := text.toList
  let f := featuresOf cs
  let plainFits := plainTag text == commonTag ++
    "str" && !(f.special || f.indicator || f.multiline ||
    f.loose || f.breakThenSpace || f.spaceThenBreak) && !(isKey && cs.isEmpty)
  let singleFits := !(f.special || f.breakThenSpace || f.spaceThenBreak) && !(isKey && f.multiline)
  if plainFits then .plain else if singleFits then .single else .double

/-- Characters in runs: blanks, line breaks and others. -/
def runs : List Char → List (List Char)
  | [] => []
  | c :: rest =>
    let kind (c : Char) : Nat := if c == ' ' then 0 else if c == '\n' then 1 else 2
    match runs rest with
    | (d :: run) :: others => if kind c == kind d then (c :: d :: run) :: others
        else [c] :: (d :: run) :: others
    | others => [c] :: others

/-- Writes the runs of a text. One blank inside of it gives way to a new line where the line is too
wide and may be broken. -/
def writeRuns (split : Bool) (column : Nat) (isFirst : Bool) (p : Pen) : List (List Char) → Pen
  | [] => p
  | run :: rest =>
    let p := match run with
      | [' '] =>
        if split && width < p.column && !isFirst && !rest.isEmpty then (p.indent column).inside
        else p.put run
      | '\n' :: _ => ((run.foldl (fun p _ => p.breakLine) p.breakLine).indent column).inside
      | _ => p.put (run.flatMap fun c => if c == '\'' then ['\'', '\''] else [c])
    writeRuns split column false p rest

/-- Writes the words of a plain text, in which quotes stand for themselves. -/
def writeWords (split : Bool) (column : Nat) (p : Pen) (runs : List (List Char)) : Pen :=
  runs.foldl (fun p run =>
    if run == [' '] && split && width < p.column then (p.indent column).inside else p.put run) p

def writePlain (split : Bool) (column : Nat) (p : Pen) (cs : List Char) : Pen :=
  if cs.isEmpty then p
  else
    let p := if p.spaced then p else p.put [' ']
    writeWords split column p.inside (runs cs)

def writeSingle (split : Bool) (column : Nat) (p : Pen) (cs : List Char) : Pen :=
  (writeRuns split column true (p.mark ['\''] true false false) (runs cs)).mark ['\'']
    false false false

/-- A number in capital hexadecimal with leading zeros. -/
def capitalHex (width n : Nat) : List Char :=
  let digits := (Nat.toDigits 16 n).map Char.toUpper
  List.replicate (width - digits.length) '0' ++ digits

/-- The escape of a character between double quotes, if it needs one. -/
def escape? (c : Char) : Option (List Char) :=
  let n := c.toNat
  let short : Option Char :=
    if n == 0 then some '0' else if n == 7 then some 'a' else if n == 8 then some 'b'
    else if n == 9 then some 't' else if n == 10 then some 'n' else if n == 11 then some 'v'
    else if n == 12 then some 'f' else if n == 13 then some 'r' else if n == 27 then some 'e'
    else if c == '"' || c == '\\' then some c
    else if n == 0x85 then some 'N' else if n == 0xa0 then some '_'
    else if n == 0x2028 then some 'L' else if n == 0x2029 then some 'P'
    else none
  match short with
  | some s => some ['\\', s]
  | none =>
    if 32 ≤ n && n ≤ 126 then none
    else if n ≤ 0xff then some ('\\' :: 'x' :: capitalHex 2 n)
    else if n ≤ 0xffff then some ('\\' :: 'u' :: capitalHex 4 n)
    else some ('\\' :: 'U' :: capitalHex 8 n)

/-- Writes characters between double quotes. `pending`, the last first, are read but not written. A
wide line is broken behind an escape, in front of a blank, or in front of the first character of a
run. -/
def writeEscaped (split : Bool) (column : Nat) (isFirst : Bool) (p : Pen) (pending : List Char) :
    List Char → Pen
  | [] => p.put pending.reverse
  | c :: rest =>
    let inner := split && !isFirst && !rest.isEmpty
    let broken (p : Pen) (next : Option Char) : Pen :=
      let p := ((p.put ['\\']).indent column).inside
      if next == some ' ' then p.put ['\\'] else p
    match escape? c with
    | some e =>
      let p := (p.put pending.reverse).put e
      let p := if inner && width + 1 < p.column then broken p rest.head? else p
      writeEscaped split column false p [] rest
    | none =>
      if inner && (c == ' ' || pending.isEmpty) && width < p.column + pending.length then
        writeEscaped split column false (broken (p.put pending.reverse) (some c)) [c] rest
      else writeEscaped split column false p (c :: pending) rest

def writeDouble (split : Bool) (column : Nat) (p : Pen) (cs : List Char) : Pen :=
  (writeEscaped split column true (p.mark ['"'] true false false) [] cs).mark ['"']
    false false false

/-- Writes a text. A key is not broken, and other texts go on at some column. -/
def writeText (isKey : Bool) (column : Nat) (p : Pen) (text : String) : Pen :=
  let cs := text.toList
  match styleOf isKey text with
  | .plain => writePlain (!isKey) column p cs
  | .single => writeSingle (!isKey) column p cs
  | .double => writeDouble (!isKey) column p cs

/-- The text of a number with a fraction. -/
def realText (x : Number.Binary64) : String :=
  let cs := (x.textWith ".inf" ".nan").toList
  if cs.contains 'e' && !cs.contains '.' then
    String.ofList (cs.takeWhile (· != 'e') ++ '.' :: '0' :: cs.dropWhile (· != 'e'))
  else String.ofList cs

/-! Collections. -/

/-- The longest key that a colon may follow. -/
def keyLimit : Nat := 122

/-- A key is followed by a colon on its line if it is short, on one line and not empty. -/
def isSimpleKey (key : String) : Bool :=
  key.length ≤ keyLimit && key != "" && !(featuresOf key.toList).multiline

mutual
/-- Writes a value. `column` is the indentation around it, which is none around the whole, and
`inMapping` says that it belongs to a key. -/
def writeValue (column : Option Nat) (inMapping : Bool) (p : Pen) : Json.Value → Pen
  | .null => writePlain true (below column) p "null".toList
  | .bool b => writePlain true (below column) p (if b then "true" else "false").toList
  | .int n => writePlain true (below column) p (Number.text n).toList
  | .real x => writePlain true (below column) p (realText x).toList
  | .string s => writeText false (below column) p s
  | .array [] => (p.mark ['['] true true false).mark [']'] false false false
  | .object [] => (p.mark ['\x7b'] true true false).mark ['\x7d'] false false false
  | .array items =>
    let hangs := inMapping && !p.indenting
    writeItems (if hangs then column.getD 0 else inner column) p items
  | .object members => writeMembers (inner column) p members
/-- Writes the items of a sequence at an indentation. -/
def writeItems (column : Nat) (p : Pen) : List Json.Value → Pen
  | [] => p
  | v :: rest =>
    let p := (p.indent column).mark ['-'] true false true
    writeItems column (writeValue (some column) false p v) rest
/-- Writes the members of a mapping at an indentation. -/
def writeMembers (column : Nat) (p : Pen) : List (String × Json.Value) → Pen
  | [] => p
  | (key, v) :: rest =>
    let p := p.indent column
    let p :=
      if isSimpleKey key then
        (writeText true (column + levelWidth) p key).mark [':'] false false false
      else
        let p := writeText false (column + levelWidth) (p.mark ['?'] true false true) key
        (p.indent column).mark [':'] true false true
    writeMembers column (writeValue (some column) true p v) rest
def inner : Option Nat → Nat
  | none => 0
  | some column => column + levelWidth
/-- The indentation of the further lines of a scalar. -/
def below : Option Nat → Nat
  | none => levelWidth
  | some column => column + levelWidth
end

end Writer

def write (v : Json.Value) : String :=
  String.ofList ((Writer.writeValue none false .start v).breakLine).written.reverse

end SchemaLoom.Yaml
