import SchemaLoom.Yaml.Fault

/-!
A place in a text of YAML: what is left of it, and the index, line and column that it begins at. The
end of the text is told as the character zero, which no text of YAML holds.
-/
namespace SchemaLoom.Yaml

def isBreak (c : Char) : Bool :=
  c == '\n' || c == '\r' || c.toNat == 0x85 || c.toNat == 0x2028 || c.toNat == 0x2029

def isEnd (c : Char) : Bool := c.toNat == 0

/-- The end of a line or of the text. -/
def endsLine (c : Char) : Bool := isEnd c || isBreak c

/-- The end of a line or of the text, or a blank. -/
def endsWord (c : Char) : Bool := endsLine c || c == ' '

/-- The end of a line or of the text, a blank or a tabulator. -/
def endsToken (c : Char) : Bool := endsWord c || c == '\t'

/-- Characters of the names of anchors, handles and directives. -/
def isNameChar (c : Char) : Bool := c.isAlphanum || c == '-' || c == '_'

structure Cursor where
  rest : List Char
  index : Nat
  line : Nat
  column : Nat

namespace Cursor

def start (cs : List Char) : Cursor := ⟨cs, 0, 0, 0⟩

def peek (c : Cursor) (ahead : Nat) : Char := (c.rest[ahead]?).getD (Char.ofNat 0)

def here (c : Cursor) : Char := c.peek 0

def next (c : Cursor) : Cursor :=
  match c.rest with
  | [] => c
  | ch :: rest =>
    let joined := ch == '\r' && (match rest with
      | '\n' :: _ => true
      | _ => false)
    if isBreak ch && !joined then ⟨rest, c.index + 1, c.line + 1, 0⟩
    else if ch.toNat == 0xfeff then ⟨rest, c.index + 1, c.line, c.column⟩
    else ⟨rest, c.index + 1, c.line, c.column + 1⟩

def skip (c : Cursor) (n : Nat) : Cursor := (List.range n).foldl (fun c _ => c.next) c

/-- The run of characters of a class from here on. -/
def run (c : Cursor) (p : Char → Bool) : List Char := c.rest.takeWhile p

/-- Moves over the run of characters of a class. -/
def skipRun (c : Cursor) (p : Char → Bool) : Cursor := c.skip (c.run p).length

def skipBlanks (c : Cursor) : Cursor := c.skipRun (· == ' ')

/-- Moves over a comment, if there is one, up to the end of the line. -/
def skipComment (c : Cursor) : Cursor := if c.here == '#' then c.skipRun (!isBreak ·) else c

/-- The line break here, as it counts in a value, and the place after it. -/
def lineBreak? (c : Cursor) : Option (Char × Cursor) :=
  let ch := c.here
  if ch == '\r' && c.peek 1 == '\n' then some ('\n', c.skip 2)
  else if ch == '\r' || ch == '\n' || ch.toNat == 0x85 then some ('\n', c.next)
  else if isBreak ch then some (ch, c.next)
  else none

/-- A line that consists of a mark of three characters begins here. -/
def atMark (c : Cursor) (mark : Char) : Bool :=
  c.here == mark && c.peek 1 == mark && c.peek 2 == mark && endsToken (c.peek 3)

/-- The start or the end of a document is marked here. -/
def atDocumentMark (c : Cursor) : Bool := c.atMark '-' || c.atMark '.'

end Cursor
end SchemaLoom.Yaml
