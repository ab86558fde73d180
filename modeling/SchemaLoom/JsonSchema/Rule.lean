import SchemaLoom.Json.Literal

/-!
Rules for values, as metaschemas state them, and what a value does against them. A rule may ask for
the whole metaschema again, which then is asked of a value further inside.
-/
namespace SchemaLoom.JsonSchema
open Json (Value)

/-- Kinds of values. Two of them are called integers: whole numbers, and numbers equal to one. -/
inductive Kind where
  | array
  | boolean
  | integer
  | integral
  | number
  | object
  | string
  deriving DecidableEq, Repr

def Kind.name : Kind → String
  | array => "array"
  | boolean => "boolean"
  | integer => "integer"
  | integral => "integer"
  | number => "number"
  | object => "object"
  | string => "string"

def Kind.admits : Kind → Value → Bool
  | array, .array _ => true
  | boolean, .bool _ => true
  | integer, .int _ => true
  | integral, .int _ => true
  | integral, .real x => x.toInt?.isSome
  | number, .int _ => true
  | number, .real _ => true
  | object, .object _ => true
  | string, .string _ => true
  | _, _ => false

/-- Patterns that names are spelled by. -/
inductive Spelling where
  /-- A reference without a fragment. -/
  | bareReference
  /-- The name of an anchor, as of 2019. -/
  | anchor2019
  /-- The name of an anchor, as of 2020. -/
  | anchor2020
  deriving DecidableEq, Repr

def Spelling.pattern : Spelling → String
  | bareReference => "^[^#]*#?$"
  | anchor2019 => "^[A-Za-z][-A-Za-z0-9.:_]*$"
  | anchor2020 => "^[A-Za-z_][-A-Za-z0-9._]*$"

/-- Text without a line feed at its end, which patterns do not see. -/
def withoutLastLine (cs : List Char) : List Char :=
  if cs.getLast? == some '\n' then cs.dropLast else cs

def Spelling.accepts (s : Spelling) (text : String) : Bool :=
  let isLetter (c : Char) : Bool := c.toNat < 128 && c.isAlpha
  let isDigit (c : Char) : Bool := c.isDigit
  match s with
  | bareReference =>
    let rest := text.toList.dropWhile (· != '#')
    rest.isEmpty || (withoutLastLine rest) == ['#']
  | anchor2019 =>
    match withoutLastLine text.toList with
    | [] => false
    | c :: rest =>
      isLetter c && rest.all fun c => isLetter c || isDigit c || "-.:_".toList.contains c
  | anchor2020 =>
    match withoutLastLine text.toList with
    | [] => false
    | c :: rest => (isLetter c || c == '_') &&
        rest.all fun c => isLetter c || isDigit c || "-._".toList.contains c

inductive Rule where
  /-- The value is of one of some kinds. -/
  | kinds (allowed : List Kind)
  /-- Members of known names follow rules of their own. -/
  | members (known : List (String × List Rule))
  | everyMember (rules : List Rule)
  | everyName (rules : List Rule)
  | everyItem (rules : List Rule)
  | leastItems (n : Nat)
  | distinctItems
  /-- A text is one of some. -/
  | oneOf (texts : List String)
  /-- The rules of one alternative hold. -/
  | anyOf (alternatives : List (List Rule))
  /-- A number is not below a bound. -/
  | atLeast (bound : Int)
  /-- A number is above a bound. -/
  | above (bound : Int)
  /-- One member asks for another. -/
  | needs (name other : String)
  | spelled (s : Spelling)
  /-- The whole metaschema holds of the value. -/
  | whole

/-- What is wrong with a part of a value: the way to the part, and what it is. -/
structure Finding where
  path : List String
  message : String
  deriving DecidableEq, Repr

def under (step : String) (found : List Finding) : List Finding :=
  found.map fun f => { f with path := step :: f.path }

def here (message : String) : List Finding := [⟨[], message⟩]

def kindsText (allowed : List Kind) : String :=
  ", ".intercalate (allowed.map fun k => Text.quoted k.name)

/-- A number is below a bound, or equal to it. -/
def below (v : Value) (bound : Int) (orEqual : Bool) : Bool :=
  match v with
  | .int n => n < bound || (orEqual && n == bound)
  | .real x => x.ltInt bound || (orEqual && x.toInt? == some bound)
  | _ => false

/-- The text of a list of texts as a value. -/
def textsLiteral (texts : List String) : String := (Value.array (texts.map .string)).literal

mutual
/-- What a value does against a rule. `again` is the whole metaschema. -/
def Rule.check (again : Value → List Finding) (r : Rule) (v : Value) : List Finding :=
  match r with
  | .kinds allowed =>
    if allowed.any (·.admits v) then []
    else here (v.literal ++ " is not of type " ++ kindsText allowed)
  | .members known => checkMembers again known v
  | .everyMember rules =>
    match v with
    | .object ms => ms.flatMap fun m => under m.1 (checkAll again rules m.2)
    | _ => []
  | .everyName rules =>
    match v with
    | .object ms => ms.flatMap fun m => checkAll again rules (.string m.1)
    | _ => []
  | .everyItem rules =>
    match v with
    | .array items =>
      items.zipIdx.flatMap fun i => under (Number.natText i.2) (checkAll again rules i.1)
    | _ => []
  | .leastItems n =>
    match v with
    | .array items =>
      if items.length < n then
        here (v.literal ++ if n == 1 then " should be non-empty" else " is too short")
      else []
    | _ => []
  | .distinctItems =>
    match v with
    | .array items =>
      if Value.allDistinct items then [] else here (v.literal ++ " has non-unique elements")
    | _ => []
  | .oneOf texts =>
    match v with
    | .string s =>
      if texts.contains s then [] else here (v.literal ++ " is not one of " ++ textsLiteral texts)
    | _ => here (v.literal ++ " is not one of " ++ textsLiteral texts)
  | .anyOf alternatives =>
    if checkAny again alternatives v then []
    else here (v.literal ++ " is not valid under any of the given schemas")
  | .atLeast bound =>
    if below v bound false then
      here (v.literal ++ " is less than the minimum of " ++ Number.text bound)
    else []
  | .above bound =>
    if below v bound true then
      here (v.literal ++ " is less than or equal to the minimum of " ++ Number.text bound)
    else []
  | .needs name other =>
    if (v.member? name).isSome && (v.member? other).isNone then
      here (Text.quoted other ++ " is a dependency of " ++ Text.quoted name)
    else []
  | .spelled s =>
    match v with
    | .string text =>
      if s.accepts text then []
      else here (v.literal ++ " does not match " ++ Text.quoted s.pattern)
    | _ => []
  | .whole => again v
def checkAll (again : Value → List Finding) (rules : List Rule) (v : Value) : List Finding :=
  match rules with
  | [] => []
  | r :: rest => r.check again v ++ checkAll again rest v
def checkMembers (again : Value → List Finding) (known : List (String × List Rule)) (v : Value) :
    List Finding :=
  match known with
  | [] => []
  | (name, rules) :: rest =>
    (match v.member? name with
      | some m => under name (checkAll again rules m)
      | none => []) ++ checkMembers again rest v
def checkAny (again : Value → List Finding) (alternatives : List (List Rule)) (v : Value) : Bool :=
  match alternatives with
  | [] => false
  | rules :: rest => (checkAll again rules v).isEmpty || checkAny again rest v
end

/-- What a value does against a metaschema. The fuel bounds how often the whole is asked again, each
time of a value further inside. -/
def findingsWithin (rules : List Rule) : Nat → Value → List Finding
  | 0, _ => []
  | fuel + 1, v => checkAll (findingsWithin rules fuel) rules v

def findings (rules : List Rule) (v : Value) : List Finding :=
  findingsWithin rules (v.depth + 1) v

end SchemaLoom.JsonSchema
