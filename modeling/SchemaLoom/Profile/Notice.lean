import SchemaLoom.Profile.Facet
import SchemaLoom.Profile.Range
import SchemaLoom.Text.Quoted

/-!
Notices: what is worth telling while a profile is read and compiled, with its weight and the part of
the program that tells it.
-/
namespace SchemaLoom.Profile
open Xml (Node)

/-- Weights of notices, the lightest first. -/
inductive Level where
  | debug
  | info
  | warning
  | error
  | critical
  deriving DecidableEq, Repr

def Level.name : Level → String
  | debug => "DEBUG"
  | info => "INFO"
  | warning => "WARNING"
  | error => "ERROR"
  | critical => "CRITICAL"

def Level.weight : Level → Nat
  | debug => 10
  | info => 20
  | warning => 30
  | error => 40
  | critical => 50

def Level.all : List Level := [.debug, .info, .warning, .error, .critical]

def Level.ofName? (name : String) : Option Level := Level.all.find? (·.name == name)

inductive Notice where
  /-- A lower end is spelled by a text that is no number. -/
  | lowerUnread (raw : String)
  /-- An upper end is spelled by a text that is no number. -/
  | upperUnread (raw : String)
  /-- An upper end below the lower one is taken for no limit. -/
  | widened (lower upper : Int)
  /-- A length is spelled by a text that is none. -/
  | lengthDropped (facet raw : String) (owner : Option String)
  /-- Declarations of one name differ. -/
  | divergent (count : Nat) (name : String)
  /-- The type of a root element. -/
  | rootType (name type : String)
  /-- An element takes a type that is there already. -/
  | reused (name type : String)
  /-- A profile of JSON has no object. -/
  | noObject
  deriving DecidableEq, Repr

def Notice.level : Notice → Level
  | divergent .. => .warning
  | noObject => .warning
  | rootType .. => .info
  | _ => .debug

/-- The part of the program that tells a notice. -/
def Notice.teller : Notice → String
  | lowerUnread _ => "converter.occurrence"
  | upperUnread _ => "converter.occurrence"
  | widened .. => "converter.occurrence"
  | noObject => "converter.json_schema"
  | _ => "converter.transform"

def Notice.message : Notice → String
  | lowerUnread raw => "minOccurs " ++ Text.quoted raw ++ " is not an integer, using 1"
  | upperUnread raw => "maxOccurs " ++ Text.quoted raw ++ " is not an integer, using 1"
  | widened lower upper =>
    "maxOccurs " ++ Number.text upper ++ " below minOccurs " ++ Number.text lower ++
      ", widened to unbounded"
  | lengthDropped facet raw owner =>
    facet ++ "=" ++ Text.quoted raw ++ " on <" ++ owner.getD "None" ++ "> is not a length, dropped"
  | divergent count name =>
    Number.natText count ++ " declarations of <" ++ name ++
      "> differ in structure, using the first one"
  | rootType name type => "root element <" ++ name ++ ">: " ++ type
  | reused name type => "<" ++ name ++ "> reuses " ++ type
  | noObject => "<JSONProfile> declares no object"

/-- A notice as a line of a log. -/
def Notice.line (n : Notice) : String :=
  n.level.name ++ " " ++ n.teller ++ ": " ++ n.message

/-- Notices of reading the range of an element. -/
def rangeNotices (n : Node) : List Notice :=
  let unread (raw : String) : Bool := (Number.ofText? (Text.strip raw)).isNone
  let lower := ((filled? n minNames).filter unread).map Notice.lowerUnread
  let upper := ((filled? n maxNames).filter fun raw =>
    unread raw && Text.lower (Text.strip raw) != "unbounded").map Notice.upperUnread
  let wide := match maxOf n with
    | .finite most => if most < minOf n then [Notice.widened (minOf n) most] else []
    | .unbounded => []
  lower.toList ++ upper.toList ++ wide

/-- Notices of reading the facets of an element or attribute of some type. -/
def facetNotices (n : Node) (p : Primitive) : List Notice :=
  if p == .string then
    ["minLength", "maxLength"].flatMap fun key =>
      (((filled? n [key]).filter fun raw => (lengthOfText? raw).isNone).map fun raw =>
        Notice.lengthDropped key raw (n.attribute? "name")).toList
  else []

end SchemaLoom.Profile
