import SchemaLoom.Distinct
import SchemaLoom.Json.Value
import SchemaLoom.Text.Quoted

/-!
Values of JSON as they are told in messages: text between quotes, the names of truth and absence
capitalised, collections with a blank behind every comma.
-/
namespace SchemaLoom.Json
namespace Value

/-- The name of the kind of a value. -/
def kindName : Value → String
  | null => "NoneType"
  | bool _ => "bool"
  | int _ => "int"
  | real _ => "float"
  | string _ => "str"
  | array _ => "list"
  | object _ => "dict"

mutual
def literal : Value → String
  | null => "None"
  | bool b => if b then "True" else "False"
  | int n => Number.text n
  | real x => x.text
  | string s => Text.quoted s
  | array items => "[" ++ ", ".intercalate (literals items) ++ "]"
  | object members => "\x7b" ++ ", ".intercalate (memberLiterals members) ++ "\x7d"
def literals : List Value → List String
  | [] => []
  | v :: rest => literal v :: literals rest
def memberLiterals : List (String × Value) → List String
  | [] => []
  | (name, v) :: rest => (Text.quoted name ++ ": " ++ literal v) :: memberLiterals rest
end

mutual
def depth : Value → Nat
  | array items => depthOfItems items + 1
  | object members => depthOfMembers members + 1
  | _ => 0
def depthOfItems : List Value → Nat
  | [] => 0
  | v :: rest => max (depth v) (depthOfItems rest)
def depthOfMembers : List (String × Value) → Nat
  | [] => 0
  | (_, v) :: rest => max (depth v) (depthOfMembers rest)
end

/-- Numbers are equal by value, whether whole or not. -/
def sameNumber (x y : Value) : Bool :=
  match x, y with
  | int m, int n => m == n
  | int m, real y => y.toInt? == some m
  | real x, int n => x.toInt? == some n
  | real x, real y => x.sameValue y
  | _, _ => false

mutual
/-- Equality of values. Members of objects are equal in any order. -/
def same : Value → Value → Bool
  | null, null => true
  | bool a, bool b => a == b
  | string a, string b => a == b
  | array as, array bs => sameItems as bs
  | object as, object bs => as.length == bs.length && sameMembers as bs
  | x, y => sameNumber x y
def sameItems : List Value → List Value → Bool
  | [], [] => true
  | x :: xs, y :: ys => same x y && sameItems xs ys
  | _, _ => false
def sameMembers : List (String × Value) → List (String × Value) → Bool
  | [], _ => true
  | (name, x) :: rest, others =>
    (match others.lookup name with
      | some y => same x y
      | none => false) && sameMembers rest others
end

/-- No two values of a list are equal. -/
def allDistinct (items : List Value) : Bool := allDistinctBy same items

end Value
end SchemaLoom.Json
