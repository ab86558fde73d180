import SchemaLoom.Xml.Name

/-!
The declaration at the start of a document: its version, the name of its encoding, and whether it
stands alone.
-/
namespace SchemaLoom.Xml

/-- The rest of a text after an expected beginning. -/
def after? : List Char → List Char → Option (List Char)
  | [], cs => some cs
  | _ :: _, [] => none
  | e :: es, c :: cs => if e == c then after? es cs else none

/-- The rest of a text after a literal beginning. -/
def afterWord? (word : String) (cs : List Char) : Option (List Char) := after? word.toList cs

def skipSpace (cs : List Char) : List Char := cs.dropWhile isSpace

/-- The rest after white space of at least one character. -/
def skipSpace1? (cs : List Char) : Option (List Char) :=
  match cs with
  | c :: rest => if isSpace c then some (skipSpace rest) else none
  | [] => none

/-- What stands between quotes of either kind, and the rest. -/
def quotedText? : List Char → Option (List Char × List Char)
  | q :: rest =>
    if q == '"' || q == '\'' then
      match rest.dropWhile (· != q) with
      | _ :: back => some (rest.takeWhile (· != q), back)
      | [] => none
    else none
  | [] => none

/-- The rest after an equals sign with optional white space around it. -/
def skipEquals? (cs : List Char) : Option (List Char) :=
  match skipSpace cs with
  | '=' :: rest => some (skipSpace rest)
  | _ => none

/-- One quoted item of a declaration, such as `version="1.0"`: its value and the rest. -/
def declared? (word : String) (cs : List Char) : Option (List Char × List Char) := do
  let rest ← afterWord? word cs
  let rest ← skipEquals? rest
  quotedText? rest

/-- Any version that begins with `1.` is read. -/
def isVersion : List Char → Bool
  | '1' :: '.' :: digits => digits.all Char.isDigit
  | _ => false

def isEncodingName : List Char → Bool
  | [] => false
  | c :: rest =>
    c.isAlpha && rest.all fun c => c.isAlphanum || c == '.' || c == '_' || c == '-'

/-- The end of a declaration, after an optional statement whether the document stands alone. -/
def standaloneEnd? (cs : List Char) : Option (List Char) :=
  match afterWord? "?>" (skipSpace cs) with
  | some rest => some rest
  | none => do
    let rest ← skipSpace1? cs
    let (value, rest) ← declared? "standalone" rest
    if value == "yes".toList || value == "no".toList then afterWord? "?>" (skipSpace rest) else none

/-- The name of the encoding and the rest of a document that begins with a declaration. -/
def declaration? (cs : List Char) : Option (Option (List Char) × List Char) := do
  let rest ← afterWord? "<?xml" cs
  let rest ← skipSpace1? rest
  let (version, rest) ← declared? "version" rest
  if !isVersion version then none
  match (skipSpace1? rest).bind (declared? "encoding") with
  | some (name, rest) =>
    if isEncodingName name then (standaloneEnd? rest).map fun rest => (some name, rest) else none
  | none => (standaloneEnd? rest).map fun rest => (none, rest)

/-- A document begins with a declaration, well-formed or not. -/
def opensDeclaration (cs : List Char) : Bool :=
  match afterWord? "<?xml" cs with
  | some (c :: _) => isSpace c
  | _ => false

def afterDeclaration? (cs : List Char) : Option (List Char) :=
  if opensDeclaration cs then (declaration? cs).map (·.2) else some cs

end SchemaLoom.Xml
