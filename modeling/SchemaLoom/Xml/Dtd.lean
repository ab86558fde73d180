import SchemaLoom.Xml.Declaration
import SchemaLoom.Xml.Entity

/-!
The document type declaration. Of its internal part the entities count and which attributes hold
lists of words; every other declaration is only checked for its form. Nothing outside the document
is read, and default values of attributes are left aside.
-/
namespace SchemaLoom.Xml

/-- What a document type says about the text that follows. -/
structure DocumentType where
  entities : Entities
  /-- Elements and those of their attributes whose values are words. -/
  wordAttributes : List (String × String)

def DocumentType.none : DocumentType := ⟨.none, []⟩

/-- Declarations read so far, entities and parameter entities in order. -/
structure Declarations where
  general : List (String × EntityValue)
  parameter : List (String × EntityValue)
  wordAttributes : List (String × String)

def Declarations.none : Declarations := ⟨[], [], []⟩

/-- A name with colons allowed, and the rest. -/
def name? (cs : List Char) : Option (List Char × List Char) :=
  match cs with
  | c :: rest =>
    let inName (c : Char) : Bool := isNameChar c || c == ':'
    if isNameStart c || c == ':' then some (c :: rest.takeWhile inName, rest.dropWhile inName)
    else Option.none
  | [] => Option.none

def plainName? (cs : List Char) : Option (List Char × List Char) :=
  (name? cs).filter fun (name, _) => !name.contains ':'

/-- What stands before the first occurrence of a word, and the rest after it. -/
def upTo? (stop : List Char) : List Char → Option (List Char × List Char)
  | [] => if stop.isEmpty then some ([], []) else Option.none
  | c :: cs =>
    match after? stop (c :: cs) with
    | some rest => some ([], rest)
    | Option.none => (upTo? stop cs).map fun (front, rest) => (c :: front, rest)

/-- The rest after a comment, of which the opening mark is gone: two hyphens only end it. -/
def skipComment? (cs : List Char) : Option (List Char) := do
  let (_, rest) ← upTo? ['-', '-'] cs
  match rest with
  | '>' :: rest => some rest
  | _ => Option.none

/-- The target of an instruction of which the opening mark is gone, and the rest after it. -/
def instruction? (cs : List Char) : Option (List Char × List Char) := do
  let (target, rest) ← plainName? cs
  if target.map Char.toLower == "xml".toList then Option.none
  match afterWord? "?>" rest with
  | some rest => some (target, rest)
  | Option.none => do
    let rest ← skipSpace1? rest
    let (_, rest) ← upTo? ['?', '>'] rest
    some (target, rest)

/-- The rest after white space, comments and instructions. -/
def skipMisc? : Nat → List Char → Option (List Char)
  | 0, cs => some cs
  | fuel + 1, cs =>
    let cs := skipSpace cs
    match afterWord? "<!--" cs with
    | some rest => (skipComment? rest).bind (skipMisc? fuel)
    | Option.none =>
      match afterWord? "<?" cs with
      | some rest => (instruction? rest).bind fun (_, rest) => skipMisc? fuel rest
      | Option.none => some cs

def isPublicChar (c : Char) : Bool :=
  c == ' ' || c == '\n' || c == '\r' || c.isAlphanum || "-'()+,./:=?;!*#@$_%".toList.contains c

/-- The rest after an external identifier. A notation may have a public identifier alone. -/
def skipExternal? (publicAlone : Bool) (cs : List Char) : Option (List Char) :=
  match afterWord? "SYSTEM" cs with
  | some rest => do
    let rest ← skipSpace1? rest
    let (_, rest) ← quotedText? rest
    some rest
  | Option.none => do
    let rest ← afterWord? "PUBLIC" cs
    let rest ← skipSpace1? rest
    let (identifier, rest) ← quotedText? rest
    if !identifier.all isPublicChar then Option.none
    match (skipSpace1? rest).bind quotedText? with
    | some (_, rest) => some rest
    | Option.none => if publicAlone then some rest else Option.none

/-- The replacement text of an entity value: characters by number are put in, references by name are
kept, and a percent sign is refused. -/
def replacementOf? (cs : List Char) : Option (List Char) := do
  if cs.contains '%' then Option.none
  let parts ← parts? cs
  return parts.flatMap fun part =>
    match part with
    | .plain c => [c]
    | .numbered c => [c]
    | .given name _ => '&' :: name.toList ++ [';']
    | .entity name => '&' :: name.toList ++ [';']

/-- The rest after the end of a declaration. -/
def closes? (cs : List Char) : Option (List Char) :=
  match skipSpace cs with
  | '>' :: rest => some rest
  | _ => Option.none

/-- The rest after an external identifier of an entity, with the notation of unparsed data. -/
def skipOutside? (general : Bool) (cs : List Char) : Option (List Char) := do
  let rest ← skipExternal? false cs
  match (skipSpace1? rest).bind (afterWord? "NDATA") with
  | some rest =>
    if !general then Option.none
    let rest ← skipSpace1? rest
    let (_, rest) ← name? rest
    some rest
  | Option.none => some rest

/-- An entity declaration of which `<!ENTITY` is gone. A name that is declared already keeps its
first meaning. -/
def entityDeclaration? (ds : Declarations) (cs : List Char) :
    Option (Declarations × List Char) := do
  let rest ← skipSpace1? cs
  let (general, rest) ← match rest with
    | '%' :: rest => (skipSpace1? rest).map fun rest => (false, rest)
    | rest => some (true, rest)
  let (name, rest) ← plainName? rest
  let rest ← skipSpace1? rest
  let (value, rest) ← match quotedText? rest with
    | some (text, rest) =>
      (replacementOf? text).map fun text => (EntityValue.replacement text, rest)
    | Option.none => (skipOutside? general rest).map fun rest => (EntityValue.outside, rest)
  let rest ← closes? rest
  let entry := (String.ofList name, value)
  if general then some ({ ds with general := ds.general ++ [entry] }, rest)
  else some ({ ds with parameter := ds.parameter ++ [entry] }, rest)

/-- The rest after a mark of how often a part of a content model occurs, if there is one. -/
def skipMark (cs : List Char) : List Char :=
  match cs with
  | c :: rest => if c == '?' || c == '*' || c == '+' then rest else cs
  | [] => []

/-- The rest after a content model of which the first parenthesis is gone. Its parts are divided by
commas or by bars, and by one of the two only. -/
def skipModel? (divider : Option Char) : Nat → List Char → Option (List Char)
  | 0, _ => Option.none
  | fuel + 1, cs => do
    let rest ← match skipSpace cs with
      | '(' :: rest => skipModel? Option.none fuel rest
      | rest => (name? rest).map (·.2)
    match skipSpace (skipMark rest) with
    | ')' :: rest => some rest
    | c :: rest =>
      if (c == ',' || c == '|') && divider.all (· == c) then skipModel? (some c) fuel rest
      else Option.none
    | [] => Option.none

/-- The rest after a content model with text in it, from behind the mark of the text. Where elements
are named, there may be any number of them. -/
def skipMixed? (named : Bool) : Nat → List Char → Option (List Char)
  | 0, _ => Option.none
  | fuel + 1, cs =>
    match skipSpace cs with
    | ')' :: '*' :: rest => some rest
    | ')' :: rest => if named then Option.none else some rest
    | '|' :: rest => (name? (skipSpace rest)).bind fun (_, rest) => skipMixed? true fuel rest
    | _ => Option.none

/-- The rest after the content of a group of which the first parenthesis is gone, its mark
included. -/
def skipContent? (cs : List Char) : Option (List Char) :=
  match afterWord? "#PCDATA" (skipSpace cs) with
  | some rest => skipMixed? false (rest.length + 1) rest
  | Option.none => (skipModel? Option.none (cs.length + 1) cs).map skipMark

/-- The rest after an element declaration of which `<!ELEMENT` is gone. -/
def elementDeclaration? (cs : List Char) : Option (List Char) := do
  let rest ← skipSpace1? cs
  let (_, rest) ← name? rest
  let rest ← skipSpace1? rest
  match rest with
  | '(' :: rest => (skipContent? rest).bind closes?
  | _ => ((afterWord? "EMPTY" rest).or (afterWord? "ANY" rest)).bind closes?

/-- A word of characters of names, and the rest. -/
def word? (cs : List Char) : Option (List Char × List Char) :=
  let inName (c : Char) : Bool := isNameChar c || c == ':'
  if (cs.takeWhile inName).isEmpty then Option.none
  else some (cs.takeWhile inName, cs.dropWhile inName)

/-- The rest after a choice of words, of which the parenthesis is gone. -/
def skipChoice? (one : List Char → Option (List Char × List Char)) : Nat → List Char →
    Option (List Char)
  | 0, _ => Option.none
  | fuel + 1, cs => do
    let (_, rest) ← one (skipSpace cs)
    match skipSpace rest with
    | '|' :: rest => skipChoice? one fuel rest
    | ')' :: rest => some rest
    | _ => Option.none

/-- The type of an attribute and the rest; true for types whose values are words. -/
def attributeType? (cs : List Char) : Option (Bool × List Char) := do
  match cs with
  | '(' :: rest => (skipChoice? word? rest.length rest).map fun rest => (true, rest)
  | _ =>
    let (word, rest) ← name? cs
    let word := String.ofList word
    if word == "CDATA" then some (false, rest)
    else if word == "NOTATION" then do
      let rest ← skipSpace1? rest
      match rest with
      | '(' :: rest => (skipChoice? name? rest.length rest).map fun rest => (true, rest)
      | _ => Option.none
    else if ["ID", "IDREF", "IDREFS", "ENTITY", "ENTITIES", "NMTOKEN",
      "NMTOKENS"].contains word then
      some (true, rest)
    else Option.none

/-- The rest after what an attribute declaration says of the absent attribute. -/
def skipDefault? (cs : List Char) : Option (List Char) :=
  let value (cs : List Char) : Option (List Char) := do
    let (text, rest) ← quotedText? cs
    let parts ← parts? text
    if parts.contains (.plain '<') then Option.none else some rest
  match (afterWord? "#REQUIRED" cs).or (afterWord? "#IMPLIED" cs) with
  | some rest => some rest
  | Option.none =>
    match afterWord? "#FIXED" cs with
    | some rest => (skipSpace1? rest).bind value
    | Option.none => value cs

/-- The attributes of an attribute list declaration, up to its end. -/
def attributeDeclarations? (element : String) : Nat → Declarations → List Char →
    Option (Declarations × List Char)
  | 0, _, _ => Option.none
  | fuel + 1, ds, cs =>
    match closes? cs with
    | some rest => some (ds, rest)
    | Option.none => do
      let rest ← skipSpace1? cs
      let (name, rest) ← name? rest
      let rest ← skipSpace1? rest
      let (words, rest) ← attributeType? rest
      let rest ← skipSpace1? rest
      let rest ← skipDefault? rest
      let entry := (element, String.ofList name)
      let ds := if words then { ds with wordAttributes := ds.wordAttributes ++ [entry] } else ds
      attributeDeclarations? element fuel ds rest

/-- The rest after a notation declaration of which `<!NOTATION` is gone. -/
def notationDeclaration? (cs : List Char) : Option (List Char) := do
  let rest ← skipSpace1? cs
  let (_, rest) ← plainName? rest
  let rest ← skipSpace1? rest
  let rest ← skipExternal? true rest
  closes? rest

/-- Declarations up to the end of the text, or up to a closing bracket where one is due. A parameter
entity between declarations stands for declarations of its own. -/
def declarations? (bracketed : Bool) : Nat → Declarations → List Char →
    Option (Declarations × List Char)
  | 0, _, _ => Option.none
  | fuel + 1, ds, cs =>
    match skipSpace cs with
    | [] => if bracketed then Option.none else some (ds, [])
    | ']' :: rest => if bracketed then some (ds, rest) else Option.none
    | '%' :: rest => do
      let (name, rest) ← plainName? rest
      let name := String.ofList name
      match rest, ds.parameter.lookup name with
      | ';' :: rest, some (.replacement text) => do
        -- inside of its own replacement a parameter entity is not declared
        let others := ds.parameter.filter (·.1 != name)
        let (inner, _) ← declarations? false fuel { ds with parameter := others } text
        let entry := (name, EntityValue.replacement text)
        declarations? bracketed fuel { inner with parameter := entry :: inner.parameter } rest
      | ';' :: rest, some .outside => declarations? bracketed fuel ds rest
      | _, _ => Option.none
    | cs =>
      match afterWord? "<!--" cs with
      | some rest => (skipComment? rest).bind (declarations? bracketed fuel ds)
      | Option.none =>
        match afterWord? "<?" cs with
        | some rest =>
          (instruction? rest).bind fun (_, rest) => declarations? bracketed fuel ds rest
        | Option.none =>
          match afterWord? "<!ENTITY" cs with
          | some rest =>
            (entityDeclaration? ds rest).bind fun (ds, rest) => declarations? bracketed fuel ds rest
          | Option.none =>
            match afterWord? "<!ATTLIST" cs with
            | some rest => do
              let rest ← skipSpace1? rest
              let (element, rest) ← name? rest
              let (ds, rest) ← attributeDeclarations? (String.ofList element) rest.length ds rest
              declarations? bracketed fuel ds rest
            | Option.none =>
              let plain := ((afterWord? "<!ELEMENT" cs).bind elementDeclaration?).or
                ((afterWord? "<!NOTATION" cs).bind notationDeclaration?)
              plain.bind (declarations? bracketed fuel ds)

/-- A document type declaration of which `<!DOCTYPE` is gone. -/
def documentType? (cs : List Char) : Option (DocumentType × List Char) := do
  let rest ← skipSpace1? cs
  let (_, rest) ← name? rest
  let rest := match (skipSpace1? rest).bind (skipExternal? false) with
    | some rest => rest
    | Option.none => rest
  match skipSpace rest with
  | '>' :: rest => some (.none, rest)
  | '[' :: rest => do
    let (ds, rest) ← declarations? true (rest.length + 1) .none rest
    let rest ← closes? rest
    some (⟨.ofValues ds.general, ds.wordAttributes⟩, rest)
  | _ => Option.none

/-- What stands in front of the root element: the document type, and the rest from the root on. -/
def prolog? (cs : List Char) : Option (DocumentType × List Char) := do
  let rest ← skipMisc? cs.length cs
  match afterWord? "<!DOCTYPE" rest with
  | some rest => documentType? rest
  | Option.none => some (.none, rest)

end SchemaLoom.Xml
