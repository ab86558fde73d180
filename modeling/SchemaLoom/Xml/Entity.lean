import SchemaLoom.Xml.Name

/-!
References inside text: characters by number, the five given names, and entities that a document
declares. An entity is expanded to its replacement, references in it included; one that refers to
itself, grows beyond a million characters, or lies outside the document cannot be expanded.
-/
namespace SchemaLoom.Xml

/-- A stretch of text with references: a character as it stands, one by number, one by one of the
five given names, or an entity. -/
inductive TextPart where
  | plain (c : Char)
  | numbered (c : Char)
  | given (name : String) (c : Char)
  | entity (name : String)
  deriving DecidableEq, Repr

def givenNames : List (String × Char) :=
  [("lt", '<'), ("gt", '>'), ("amp", '&'), ("quot", '"'), ("apos", '\'')]

/-- The value of a digit in a base of at most sixteen. -/
def digitIn? (base : Nat) (c : Char) : Option Nat :=
  let n := c.toNat
  let value := if c.isDigit then n - 48
    else if 'a' ≤ c && c ≤ 'f' then n - 87
    else if 'A' ≤ c && c ≤ 'F' then n - 55
    else base
  if value < base then some value else none

/-- The character of a number in some base. -/
def numbered? (base : Nat) (digits : List Char) : Option Char := do
  if digits.isEmpty then none
  let values ← digits.mapM (digitIn? base)
  let n := values.foldl (fun n d => if n > 0x110000 then n else base * n + d) 0
  if n < 0x110000 && !(0xd800 ≤ n && n < 0xe000) && isXmlChar (Char.ofNat n) then
    some (Char.ofNat n)
  else none

/-- What the characters between an ampersand and a semicolon stand for. -/
def reference? : List Char → Option TextPart
  | '#' :: 'x' :: digits => (numbered? 16 digits).map .numbered
  | '#' :: digits => (numbered? 10 digits).map .numbered
  | name =>
    if isPlainName name then
      let name := String.ofList name
      match givenNames.lookup name with
      | some c => some (.given name c)
      | none => some (.entity name)
    else none

/-- Splits text at its references. `pending` holds the characters since an ampersand. -/
def partsFrom? (pending : Option (List Char)) : List Char → Option (List TextPart)
  | [] => if pending.isNone then some [] else none
  | c :: rest =>
    match pending with
    | none =>
      if c == '&' then partsFrom? (some []) rest else (.plain c :: ·) <$> partsFrom? none rest
    | some name =>
      if c == ';' then do
        let part ← reference? name.reverse
        let parts ← partsFrom? none rest
        return part :: parts
      else partsFrom? (some (c :: name)) rest

def parts? (cs : List Char) : Option (List TextPart) := partsFrom? none cs

/-- What a declared entity stands for. -/
inductive EntityValue where
  | replacement (text : List Char)
  | outside
  deriving DecidableEq, Repr

/-- The entities of a document, with the length that each has when fully expanded. -/
structure Entities where
  values : List (String × EntityValue)
  sizes : List (String × Nat)
  deriving Repr

def expansionLimit : Nat := 1000000

/-- The length of a text whose entities have known lengths. -/
def expandedSize? (sizes : List (String × Nat)) (text : List Char) : Option Nat :=
  match parts? text with
  | none => some text.length
  | some parts => parts.foldlM (fun n part =>
      match part with
      | .entity name => (sizes.lookup name).map (n + ·)
      | _ => some (n + 1)) 0

def measured (values : List (String × EntityValue)) (sizes : List (String × Nat)) :
    List (String × Nat) :=
  values.filterMap fun (name, value) =>
    match value with
    | .replacement text => (expandedSize? sizes text).map (name, ·)
    | .outside => none

/-- Measures entities as often as there are entities: those without a length then lead to themselves
or to one that is not declared. -/
def Entities.ofValues (values : List (String × EntityValue)) : Entities :=
  ⟨values, (List.range (values.length + 1)).foldl (fun sizes _ => measured values sizes) []⟩

def Entities.none : Entities := ⟨[], []⟩

/-- The replacement of an entity that can be expanded. -/
def Entities.replacement? (es : Entities) (name : String) : Option (List Char) :=
  match es.values.lookup name, es.sizes.lookup name with
  | some (.replacement text), some size => if size ≤ expansionLimit then some text else Option.none
  | _, _ => Option.none

def Entities.depth (es : Entities) : Nat := es.values.length + 1

/-- The value of an attribute: white space becomes blanks unless given by number, and no part holds
the start of a tag. -/
def valueOf? (es : Entities) : Nat → List TextPart → Option (List Char)
  | depth, parts => do
    let pieces ← parts.mapM fun part =>
      match part with
      | .plain c => if c == '<' then Option.none else some [if isSpace c then ' ' else c]
      | .numbered c => some [c]
      | .given _ c => some [c]
      | .entity name =>
        match depth with
        | 0 => Option.none
        | depth + 1 => do
          let text ← es.replacement? name
          let inner ← parts? text
          valueOf? es depth inner
    return pieces.flatten

end SchemaLoom.Xml
