import SchemaLoom.Number.Binary64
import SchemaLoom.Number.Integer
import SchemaLoom.Text.Surrogate
import SchemaLoom.Yaml.Time

/-!
Values that a text of YAML stands for, how they are told from one another as keys, and their text.
-/
namespace SchemaLoom.Yaml

open Number (Binary64)

inductive Value where
  | null
  | bool (b : Bool)
  | int (n : Int)
  | float (x : Binary64)
  | string (s : String)
  /-- A text with a lone half of a surrogate pair in it, by the numbers of its characters. -/
  | broken (codes : List Nat)
  | binary (octets : List UInt8)
  | date (d : Date)
  | dateTime (t : DateTime)
  | list (items : List Value)
  | pairs (items : List (Value × Value))
  | set (members : List Value)
  /-- Keys differ from one another and stand in the order of their first mention. -/
  | mapping (entries : List (Value × Value))
  /-- A mapping or a list that stands in another collection and holds itself. Besides its kind only
  its text is known, if no number in it is too long for there to be one. -/
  | recursive (isMapping : Bool) (text : Option String)
  deriving Inhabited

namespace Value

/-- The whole number that a value counts as; truth counts as one. -/
def whole? : Value → Option Int
  | bool b => some (if b then 1 else 0)
  | int n => some n
  | float x => x.toInt?
  | _ => none

/-- Two keys are one. Numbers are told apart by value, not by kind. -/
def sameKey (a b : Value) : Bool :=
  match a.whole?, b.whole? with
  | some m, some n => m == n
  | some _, none => false
  | none, some _ => false
  | none, none =>
    match a, b with
    | null, null => true
    | float x, float y => x.sameValue y
    | string s, string t => s == t
    | broken s, broken t => s == t
    | binary s, binary t => s == t
    | date s, date t => s == t
    | dateTime s, dateTime t => s == t
    | _, _ => false

/-- Puts an entry in place: a key that is there keeps its place and its spelling. -/
def insert (entries : List (Value × Value)) (key value : Value) : List (Value × Value) :=
  match entries with
  | [] => [(key, value)]
  | (k, v) :: rest => if k.sameKey key then (k, value) :: rest else (k, v) :: insert rest key value

/-- The entry of a key that is text. -/
def member? (entries : List (Value × Value)) (key : String) : Option Value :=
  (entries.find? fun e => e.1.sameKey (.string key)).map (·.2)

/-- Nothing, zero and everything empty count as absent. -/
def isAbsent : Value → Bool
  | null => true
  | bool b => !b
  | int n => n == 0
  | float x => x.toInt? == some 0
  | string s => s.isEmpty
  | broken codes => codes.isEmpty
  | binary octets => octets.isEmpty
  | list items => items.isEmpty
  | pairs items => items.isEmpty
  | set members => members.isEmpty
  | mapping entries => entries.isEmpty
  | recursive .. => false
  | date _ => false
  | dateTime _ => false

/-- The name of the kind of a value. -/
def kindName : Value → String
  | null => "NoneType"
  | bool _ => "bool"
  | int _ => "int"
  | float _ => "float"
  | string _ => "str"
  | broken _ => "str"
  | binary _ => "bytes"
  | date _ => "date"
  | dateTime _ => "datetime"
  | list _ => "list"
  | pairs _ => "list"
  | set _ => "set"
  | mapping _ => "dict"
  | recursive isMapping _ => if isMapping then "dict" else "list"

/-- The name of the kind with the family it belongs to. -/
def fullKindName : Value → String
  | date _ => "datetime.date"
  | dateTime _ => "datetime.datetime"
  | v => v.kindName

def isCollection : Value → Bool
  | list _ => true
  | pairs _ => true
  | set _ => true
  | mapping _ => true
  | recursive .. => true
  | _ => false

/-- The numbers of the characters of a value that is text. -/
def codes? : Value → Option (List Nat)
  | string s => some (Text.codesOf s)
  | broken codes => some codes
  | _ => none

def isText (v : Value) : Bool := v.codes?.isSome

def octetText (quote : Char) (b : UInt8) : List Char :=
  let n := b.toNat
  let c := Char.ofNat n
  if c == quote || c == '\\' then ['\\', c]
  else if c == '\t' then ['\\', 't']
  else if c == '\n' then ['\\', 'n']
  else if c == '\r' then ['\\', 'r']
  else if 0x20 ≤ n && n < 0x7f then [c]
  else '\\' :: 'x' :: Text.hexPadded 2 n

def octetsText (octets : List UInt8) : String :=
  let single := octets.contains 39 && !octets.contains 34
  let quote := if single then '"' else '\''
  String.ofList ('b' :: quote :: octets.flatMap (octetText quote) ++ [quote])

mutual
/-- A value as it stands inside a collection. -/
def literal : Value → String
  | null => "None"
  | bool b => if b then "True" else "False"
  | int n => Number.text n
  | float x => x.text
  | string s => Text.quoted s
  | broken codes => Text.quotedCodes codes
  | binary octets => octetsText octets
  | date d => d.literal
  | dateTime t => t.literal
  | list items => "[" ++ ", ".intercalate (literals items) ++ "]"
  | pairs items => "[" ++ ", ".intercalate (pairLiterals items) ++ "]"
  | set [] => "set()"
  | set (m :: members) => "\x7b" ++ ", ".intercalate (literal m :: literals members) ++ "\x7d"
  | mapping entries => "\x7b" ++ ", ".intercalate (entryLiterals entries) ++ "\x7d"
  | recursive _ text => text.getD ""
def literals : List Value → List String
  | [] => []
  | v :: rest => literal v :: literals rest
def pairLiterals : List (Value × Value) → List String
  | [] => []
  | (k, v) :: rest => ("(" ++ literal k ++ ", " ++ literal v ++ ")") :: pairLiterals rest
def entryLiterals : List (Value × Value) → List String
  | [] => []
  | (k, v) :: rest => (literal k ++ ": " ++ literal v) :: entryLiterals rest
end

mutual
/-- A value can be written: no number in it is too long. -/
def isWritable : Value → Bool
  | int n => Number.IsWritable n
  | list items => areWritable items
  | pairs items => arePairsWritable items
  | set members => areWritable members
  | mapping entries => arePairsWritable entries
  | recursive _ text => text.isSome
  | _ => true
def areWritable : List Value → Bool
  | [] => true
  | v :: rest => isWritable v && areWritable rest
def arePairsWritable : List (Value × Value) → Bool
  | [] => true
  | (k, v) :: rest => isWritable k && isWritable v && arePairsWritable rest
end

def text : Value → String
  | string s => s
  | broken codes => Text.shownCodes codes
  | date d => d.text
  | dateTime t => t.text
  | v => v.literal

end Value

/-- What reads a text of YAML: it finds a value or a fault, of which only that of a malformed text
is one of YAML. -/
abbrev Loader := List Char → Except Fault Value

end SchemaLoom.Yaml
