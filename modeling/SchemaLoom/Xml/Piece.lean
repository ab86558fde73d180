import SchemaLoom.Xml.Dtd

/-!
A document as a sequence of pieces: tags, text and instructions in the order they are written. Raw
pieces still hold references; in expanded pieces every entity is replaced by what it stands for.
-/
namespace SchemaLoom.Xml

/-- A piece as it is written. An empty tag counts as a tag that opens and one that closes. -/
inductive RawPiece where
  | opening (name : List Char) (attributes : List (List Char × List TextPart))
  | closing (name : List Char)
  | text (parts : List TextPart)
  | verbatim (chars : List Char)
  | instruction (target : List Char)

/-- A piece after expansion. Text is literal if no character of it comes from a reference or from a
verbatim section. -/
inductive Piece where
  | opening (name : List Char) (attributes : List (List Char × List Char))
  | closing (name : List Char)
  | text (chars : List Char) (literal : Bool)
  | instruction (target : List Char)
  deriving DecidableEq, Repr

/-- The attributes of a tag, whether the tag is empty, and the rest after it. -/
def tagEnd? : Nat → List Char → Option (List (List Char × List TextPart) × Bool × List Char)
  | 0, _ => none
  | fuel + 1, cs =>
    match skipSpace cs with
    | '>' :: rest => some ([], false, rest)
    | '/' :: '>' :: rest => some ([], true, rest)
    | _ => do
      let rest ← skipSpace1? cs
      let (name, rest) ← name? rest
      let rest ← skipEquals? rest
      let (value, rest) ← quotedText? rest
      if value.contains '<' then none
      let parts ← parts? value
      let (others, empty, rest) ← tagEnd? fuel rest
      some ((name, parts) :: others, empty, rest)

/-- The end mark of a verbatim section occurs. -/
def hasSectionEnd : List Char → Bool
  | [] => false
  | c :: cs => (after? [']', ']', '>'] (c :: cs)).isSome || hasSectionEnd cs

/-- The first piece of a text that is not empty, as a list of none, one or two, and the rest. -/
def nextPiece? (cs : List Char) : Option (List RawPiece × List Char) :=
  match cs with
  | '<' :: '/' :: rest => do
    let (name, rest) ← name? rest
    let rest ← closes? rest
    some ([.closing name], rest)
  | '<' :: '?' :: rest => do
    let (target, rest) ← instruction? rest
    some ([.instruction target], rest)
  | '<' :: '!' :: '-' :: '-' :: rest => do
    let rest ← skipComment? rest
    some ([], rest)
  | '<' :: '!' :: rest => do
    let rest ← afterWord? "[CDATA[" rest
    let (chars, rest) ← upTo? [']', ']', '>'] rest
    some ([.verbatim chars], rest)
  | '<' :: rest => do
    let (name, rest) ← name? rest
    let (attributes, empty, rest) ← tagEnd? (rest.length + 1) rest
    let opening := RawPiece.opening name attributes
    some (if empty then [opening, .closing name] else [opening], rest)
  | cs => do
    let front := cs.takeWhile (· != '<')
    if hasSectionEnd front then none
    let parts ← parts? front
    some ([.text parts], cs.dropWhile (· != '<'))

/-- The pieces of a text, which takes no more steps than it has characters. -/
def piecesWithin? : Nat → List Char → Option (List RawPiece)
  | _, [] => some []
  | 0, _ => none
  | fuel + 1, cs => do
    let (here, rest) ← nextPiece? cs
    let others ← piecesWithin? fuel rest
    return here ++ others

def rawPieces? (cs : List Char) : Option (List RawPiece) := piecesWithin? cs.length cs

/-- Every tag that opens is closed in turn, and none else. -/
def isBalanced : List (List Char) → List Piece → Bool
  | opened, [] => opened.isEmpty
  | opened, .opening name _ :: rest => isBalanced (name :: opened) rest
  | opened, .closing name :: rest =>
    match opened with
    | last :: opened => last == name && isBalanced opened rest
    | [] => false
  | opened, _ :: rest => isBalanced opened rest

/-- Replaces the references of a piece. What an entity of text stands for may hold tags, all closed
inside of it. -/
def expandPiece? (es : Entities) : Nat → RawPiece → Option (List Piece)
  | _, .opening name attributes => do
    let attributes ← attributes.mapM fun (name, parts) =>
      (valueOf? es es.depth parts).map fun value => (name, value)
    some [.opening name attributes]
  | _, .closing name => some [.closing name]
  | _, .verbatim chars => some [.text chars false]
  | _, .instruction target => some [.instruction target]
  | depth, .text parts => do
    let pieces ← parts.mapM fun part =>
      match part with
      | .plain c => some [.text [c] true]
      | .numbered c => some [.text [c] false]
      | .given _ c => some [.text [c] false]
      | .entity name =>
        match depth with
        | 0 => none
        | depth + 1 => do
          let text ← es.replacement? name
          let raw ← rawPieces? text
          let inner ← raw.mapM (expandPiece? es depth)
          let inner := inner.flatten
          if isBalanced [] inner then some (Piece.text [] false :: inner) else none
    some pieces.flatten

def joinText : List Piece → List Piece
  | [] => []
  | .text chars literal :: rest =>
    match joinText rest with
    | .text more literal' :: rest => .text (chars ++ more) (literal && literal') :: rest
    | rest => .text chars literal :: rest
  | p :: rest => p :: joinText rest

/-- The pieces of a text with every reference replaced. -/
def pieces? (es : Entities) (cs : List Char) : Option (List Piece) := do
  let raw ← rawPieces? cs
  let pieces ← raw.mapM (expandPiece? es es.depth)
  return joinText pieces.flatten

end SchemaLoom.Xml
