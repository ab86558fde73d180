/-!
Names of files: where a name begins, the segments between its slashes, and the names made of it. A
name in normal form has no empty segment and no `.`; `..` stays, since what it leads to is not known
from the name.
-/
namespace SchemaLoom.Files

/-- The segments between slashes, empty ones among them. -/
def segments (name : String) : List String :=
  (name.toList.foldr (fun c parts =>
    match parts with
    | part :: rest => if c == '/' then [] :: part :: rest else (c :: part) :: rest
    | [] => []) [[]]).map String.ofList

/-- A name in normal form: the slashes that it begins with and its segments. -/
structure Path where
  anchor : String
  parts : List String
  deriving DecidableEq, Repr

namespace Path

/-- Two slashes in front are kept; one stands for any other number of them. -/
def anchorOf (name : String) : String :=
  match (name.toList.takeWhile (· == '/')).length with
  | 0 => ""
  | 2 => "//"
  | _ => "/"

def ofText (name : String) : Path :=
  ⟨anchorOf name, (segments name).filter fun s => s != "" && s != "."⟩

/-- The name of the place itself is a dot. -/
def text (p : Path) : String :=
  if p.anchor == "" && p.parts.isEmpty then "." else p.anchor ++ "/".intercalate p.parts

def name (p : Path) : String := p.parts.getLast?.getD ""

/-- The name without its last suffix. A dot at either end of the name begins no suffix. -/
def stem (p : Path) : String :=
  let cs := p.name.toList
  let front := (cs.reverse.dropWhile (· != '.')).drop 1
  let suffix := cs.reverse.takeWhile (· != '.')
  if front.isEmpty || suffix.isEmpty then p.name else String.ofList front.reverse

def parent (p : Path) : Path := { p with parts := p.parts.dropLast }

/-- What lies below a place under a relative name. -/
def join (p : Path) (below : String) : Path := { p with parts := p.parts ++ (ofText below).parts }

end Path

/-- The part of a name behind its last slash. -/
def baseName (name : String) : String := (segments name).getLast?.getD ""

/-- Text without the slashes at its end, unless it has nothing else. -/
def trimSlashes (cs : List Char) : List Char :=
  let trimmed := (cs.reverse.dropWhile (· == '/')).reverse
  if trimmed.isEmpty then cs else trimmed

/-- The part of a name in front of its last slash. -/
def parentName (name : String) : String :=
  String.ofList (trimSlashes (name.toList.reverse.dropWhile (· != '/')).reverse)

/-- A name without its last suffix. Dots that a segment begins with are part of it. -/
def withoutSuffix (name : String) : String :=
  let base := (baseName name).toList
  let suffix := base.reverse.takeWhile (· != '.')
  let front := ((base.reverse.dropWhile (· != '.')).drop 1).reverse
  if base.contains '.' && front.any (· != '.') then
    String.ofList (name.toList.take (name.length - suffix.length - 1))
  else name

/-- Segments with every `..` resolved against the segment in front of it. -/
def resolveDots (rooted : Bool) (segments : List String) : List String :=
  (segments.foldl (fun done s =>
    if s == "" || s == "." then done
    else if s == ".." then
      match done with
      | [] => if rooted then [] else [".."]
      | last :: rest => if last == ".." then ".." :: done else rest
    else s :: done) []).reverse

/-- The full name of a place that a name leads to from a current place. -/
def fullName (current name : String) : String :=
  let whole := if name.startsWith "/" then name else current ++ "/" ++ name
  let anchor := Path.anchorOf whole
  let parts := resolveDots (anchor != "") (segments whole)
  if anchor == "" && parts.isEmpty then "." else anchor ++ "/".intercalate parts

example : (Path.ofText "a//./b.tar.gz").stem = "b.tar" ∧ (Path.ofText "..").stem = ".." := by
  decide +kernel
example : withoutSuffix "o/a.schema.json" = "o/a.schema" ∧ withoutSuffix "o/.x" = "o/.x" := by
  decide +kernel

end SchemaLoom.Files
