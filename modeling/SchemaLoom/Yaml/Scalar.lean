import SchemaLoom.Text.Utf8
import SchemaLoom.Yaml.Cursor

/-!
Scalars as they are written: plain, between quotes of two kinds, and as blocks of lines that are
kept or folded. A function here begins at the first character of its scalar and ends after the last.
-/
namespace SchemaLoom.Yaml

/-- What a line break in a folded scalar becomes: a blank, unless further breaks follow or the break
is of a kind that is kept. -/
def folded (first : Char) (others : List Char) : List Char :=
  if first != '\n' then first :: others
  else if others.isEmpty then [' ']
  else others

/-! Plain scalars. -/

/-- Characters that end a plain scalar inside of brackets. -/
def isFlowStop (c : Char) : Bool := ",?[]\x7b\x7d".toList.contains c

/-- The part of a plain scalar on one line without blanks. -/
def plainRun (inFlow : Bool) : List Char → List Char
  | [] => []
  | c :: rest =>
    let after := rest.head?.getD (Char.ofNat 0)
    let colonEnds := c == ':' &&
      (endsToken after || (inFlow && ",[]\x7b\x7d".toList.contains after))
    if endsToken c || colonEnds || (inFlow && isFlowStop c) then []
    else c :: plainRun inFlow rest

/-- Breaks and blanks that follow a first break, up to a mark of a document. -/
def plainBreaks? : Nat → Cursor → List Char → Option (List Char × Cursor)
  | 0, c, found => some (found.reverse, c)
  | fuel + 1, c, found =>
    if c.here == ' ' then plainBreaks? fuel c.next found
    else
      match c.lineBreak? with
      | some (b, c) => if c.atDocumentMark then none else plainBreaks? fuel c (b :: found)
      | none => some (found.reverse, c)

/-- What stands between two parts of a plain scalar, and whether a line was broken there. Nothing
ends the scalar. -/
def plainSpaces (c : Cursor) : List Char × Bool × Cursor :=
  let blanks := c.run (· == ' ')
  let c := c.skipBlanks
  match c.lineBreak? with
  | some (b, c) =>
    if c.atDocumentMark then ([], true, c)
    else
      match plainBreaks? (c.rest.length + 1) c [] with
      | some (others, c) => (folded b others, true, c)
      | none => ([], true, c)
  | none => (blanks, false, c)

/-- A plain scalar in a block of some indentation: its text, and whether a line was broken after its
last part. -/
def plainFrom (inFlow : Bool) (indent : Int) : Nat → Cursor → List Char → List Char → Bool →
    List Char × Bool × Cursor
  | 0, c, done, _, broken => (done, broken, c)
  | fuel + 1, c, done, spaces, broken =>
    let part := plainRun inFlow c.rest
    if c.here == '#' || part.isEmpty then (done, broken, c)
    else
      let done := done ++ spaces ++ part
      let (spaces, broken, c) := plainSpaces (c.skip part.length)
      if spaces.isEmpty || c.here == '#' || (!inFlow && (c.column : Int) < indent) then
        (done, broken, c)
      else plainFrom inFlow indent fuel c done spaces broken

def plainScalar (inFlow : Bool) (indent : Int) (c : Cursor) : List Char × Bool × Cursor :=
  plainFrom inFlow indent (c.rest.length + 1) c [] [] false

/-! Scalars between quotes. -/

def shortEscapes : List (Char × Nat) := [
  ('0', 0), ('a', 7), ('b', 8), ('t', 9), ('\t', 9), ('n', 10), ('v', 11), ('f', 12), ('r', 13),
  ('e', 27), (' ', 32), ('"', 34), ('\\', 92), ('/', 47), ('N', 0x85), ('_', 0xa0), ('L', 0x2028),
  ('P', 0x2029)]

/-- Escapes by number, with their count of digits. -/
def longEscapes : List (Char × Nat) := [('x', 2), ('u', 4), ('U', 8)]

def hexValue? (c : Char) : Option Nat :=
  if c.isDigit then some (c.toNat - 48)
  else if 'a' ≤ c && c ≤ 'f' then some (c.toNat - 87)
  else if 'A' ≤ c && c ≤ 'F' then some (c.toNat - 55)
  else none

def hexNumber? (cs : List Char) : Option Nat :=
  cs.foldlM (fun n c => (hexValue? c).map (16 * n + ·)) 0

/-- Breaks and blanks inside of quotes after a first break. -/
def quotedBreaks : Nat → Cursor → List Char → Except Fault (List Char × Cursor)
  | 0, _, _ => .error .malformed
  | fuel + 1, c, found =>
    if c.atDocumentMark then .error .malformed
    else
      let c := c.skipRun fun ch => ch == ' ' || ch == '\t'
      match c.lineBreak? with
      | some (b, c) => quotedBreaks fuel c (b :: found)
      | none => .ok (found.reverse, c)

def quotedSpaces (c : Cursor) : Except Fault (List Char × Cursor) :=
  let isSpace (ch : Char) : Bool := ch == ' ' || ch == '\t'
  let blanks := c.run isSpace
  let c := c.skipRun isSpace
  if isEnd c.here then .error .malformed
  else
    match c.lineBreak? with
    | some (b, c) => do
      let (others, c) ← quotedBreaks (c.rest.length + 1) c []
      .ok (folded b others, c)
    | none => .ok (blanks, c)

/-- The escape of which the backslash is gone. -/
def escape (c : Cursor) : Except Fault (List Char × Cursor) :=
  match shortEscapes.lookup c.here, longEscapes.lookup c.here with
  | some code, _ => .ok ([Char.ofNat code], c.next)
  | none, some width =>
    let c := c.next
    let digits := c.rest.take width
    if digits.length < width then .error .malformed
    else
      match hexNumber? digits with
      | none => .error .malformed
      | some n =>
        if n > 0x7fffffff then .error .hugeCharacter
        else if n > 0x10ffff then .error .badCharacter
        else if 0xd800 ≤ n && n < 0xe000 then .ok ([Char.ofNat 0xfffd], c.skip width)
        else .ok ([Char.ofNat n], c.skip width)
  | none, none =>
    match c.lineBreak? with
    | some (_, c) => quotedBreaks (c.rest.length + 1) c []
    | none => .error .malformed

/-- The text up to the closing quote, which is passed. -/
def quotedFrom (double : Bool) : Nat → Cursor → List Char → Except Fault (List Char × Cursor)
  | 0, _, _ => .error .malformed
  | fuel + 1, c, done =>
    let ch := c.here
    let quote := if double then '"' else '\''
    if !double && ch == '\'' && c.peek 1 == '\'' then quotedFrom double fuel
      (c.skip 2) ('\'' :: done)
    else if ch == quote then .ok (done.reverse, c.next)
    else if double && ch == '\\' then do
      let (chars, c) ← escape c.next
      quotedFrom double fuel c (chars.reverse ++ done)
    else if endsToken ch then do
      let (chars, c) ← quotedSpaces c
      quotedFrom double fuel c (chars.reverse ++ done)
    else quotedFrom double fuel c.next (ch :: done)

def quotedScalar (double : Bool) (c : Cursor) : Except Fault (List Char × Cursor) :=
  quotedFrom double (c.rest.length + 1) c.next []

/-! Blocks of lines. -/

/-- What becomes of the line breaks at the end of a block. -/
inductive Chomping where
  | strip
  | clip
  | keep
  deriving DecidableEq, Repr

def chompingOf? (c : Char) : Option Chomping :=
  if c == '+' then some .keep else if c == '-' then some .strip else none

/-- The indicators after the first character of a block: chomping and indentation, in any order. -/
def blockIndicators (c : Cursor) : Except Fault (Chomping × Option Nat × Cursor) := do
  let digit? (ch : Char) : Option Nat := if ch.isDigit then some (ch.toNat - 48) else none
  let (chomping, increment, c) := match chompingOf? c.here with
    | some chomping =>
      let c := c.next
      match digit? c.here with
      | some d => (chomping, some d, c.next)
      | none => (chomping, none, c)
    | none =>
      match digit? c.here with
      | some d =>
        let c := c.next
        match chompingOf? c.here with
        | some chomping => (chomping, some d, c.next)
        | none => (.clip, some d, c)
      | none => (.clip, none, c)
  if increment == some 0 || !endsWord c.here then .error .malformed
  else .ok (chomping, increment, c)

/-- The end of a line that may hold blanks and a comment. -/
def restOfLine (c : Cursor) : Except Fault Cursor :=
  let c := c.skipBlanks.skipComment
  if !endsLine c.here then .error .malformed
  else
    match c.lineBreak? with
    | some (_, c) => .ok c
    | none => .ok c

/-- Blank lines at the start of a block: their breaks and the deepest column among them. -/
def blockIndentation : Nat → Cursor → List Char → Nat → List Char × Nat × Cursor
  | 0, c, found, deepest => (found.reverse, deepest, c)
  | fuel + 1, c, found, deepest =>
    if c.here == ' ' then
      let c := c.next
      blockIndentation fuel c found (max deepest c.column)
    else
      match c.lineBreak? with
      | some (b, c) => blockIndentation fuel c (b :: found) deepest
      | none => (found.reverse, deepest, c)

/-- Moves over blanks, but not beyond a column. -/
def skipIndent (indent : Nat) (c : Cursor) : Cursor :=
  c.skip (min (c.run (· == ' ')).length (indent - c.column))

/-- Blank lines inside a block, and the indentation of the line after them. -/
def blockBreaks (indent : Nat) : Nat → Cursor → List Char → List Char × Cursor
  | 0, c, found => (found.reverse, c)
  | fuel + 1, c, found =>
    match c.lineBreak? with
    | some (b, c) => blockBreaks indent fuel (skipIndent indent c) (b :: found)
    | none => (found.reverse, c)

/-- The lines of a block: its text so far, the break after the last line, and the breaks of the
blank lines behind it. -/
def blockLines (fold : Bool) (indent : Nat) : Nat → Cursor → List Char → List Char →
    List Char × List Char × List Char × Cursor
  | 0, c, done, breaks => (done, [], breaks, c)
  | fuel + 1, c, done, breaks =>
    let isSpace (ch : Char) : Bool := ch == ' ' || ch == '\t'
    let leading := !isSpace c.here
    let line := c.run (!isBreak ·)
    let done := done ++ breaks ++ line
    let c := c.skip line.length
    let (lineBreak, c) := match c.lineBreak? with
      | some (b, c) => ([b], c)
      | none => ([], c)
    let (breaks, c) := blockBreaks indent (c.rest.length + 1) (skipIndent indent c) []
    if c.column == indent && !isEnd c.here then
      let joint :=
        if fold && lineBreak == ['\n'] && leading && !isSpace c.here then
          if breaks.isEmpty then [' '] else []
        else lineBreak
      blockLines fold indent fuel c (done ++ joint) breaks
    else (done, lineBreak, breaks, c)

/-- A block scalar in a block of some indentation. -/
def blockScalar (fold : Bool) (indent : Int) (c : Cursor) : Except Fault (List Char × Cursor) := do
  let (chomping, increment, c) ← blockIndicators c.next
  let c ← restOfLine c
  let least := (max (indent + 1) 1).toNat
  let (breaks, indent, c) := match increment with
    | none =>
      let (breaks, deepest, c) := blockIndentation (c.rest.length + 1) c [] 0
      (breaks, max least deepest, c)
    | some n =>
      let indent := least + n - 1
      let (breaks, c) := blockBreaks indent (c.rest.length + 1) (skipIndent indent c) []
      (breaks, indent, c)
  let (text, lineBreak, breaks, c) :=
    if c.column == indent && !isEnd c.here then
      blockLines fold indent (c.rest.length + 1) c [] breaks
    else ([], [], breaks, c)
  let tail := match chomping with
    | .strip => []
    | .clip => lineBreak
    | .keep => lineBreak ++ breaks
  .ok (text ++ tail, c)

end SchemaLoom.Yaml
