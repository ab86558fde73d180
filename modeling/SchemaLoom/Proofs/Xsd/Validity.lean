import Mathlib.Tactic.Lemma
import SchemaLoom.Calendar
import SchemaLoom.Text.Blank
import SchemaLoom.Xsd.Render

/-! Documents that are valid by a schema: which texts spell values of the built-in types, and what
may stand in an element of some type. -/
namespace SchemaLoom.Xsd
open Profile (Primitive Facet Range Bound AttributeUse)
open Xml (Node QName Attribute)

/-! ## Values of built-in types -/

def isDigits (cs : List Char) : Bool := !cs.isEmpty && cs.all Char.isDigit

def unsigned : List Char → List Char
  | '+' :: cs => cs
  | '-' :: cs => cs
  | cs => cs

def isInteger (cs : List Char) : Bool := isDigits (unsigned cs)

/-- Digits with at most one point among them or at an end. -/
def isDecimal (cs : List Char) : Bool :=
  let whole := (unsigned cs).takeWhile Char.isDigit
  match (unsigned cs).dropWhile Char.isDigit with
  | [] => !whole.isEmpty
  | '.' :: fraction => fraction.all Char.isDigit && !(whole ++ fraction).isEmpty
  | _ => false

def isBoolean (cs : List Char) : Bool :=
  ["true".toList, "false".toList, "1".toList, "0".toList].contains cs

def numberOf (digits : List Char) : Nat :=
  digits.foldl (fun n d => 10 * n + (d.toNat - '0'.toNat)) 0

/-- Nothing, or the distance of a time zone from the common one. -/
def isZone : List Char → Bool
  | [] => true
  | ['Z'] => true
  | [sign, h, h', ':', m, m'] =>
    (sign == '+' || sign == '-') && [h, h', m, m'].all Char.isDigit && numberOf [m, m'] < 60 &&
      numberOf [h, h', m, m'] ≤ 1400
  | _ => false

/-- The rest after a date that there is in the calendar. A year has four digits or more, and is not
zero. -/
def afterDate? (cs : List Char) : Option (List Char) :=
  let cs := match cs with
    | '-' :: cs => cs
    | cs => cs
  let year := cs.takeWhile Char.isDigit
  match cs.dropWhile Char.isDigit with
  | '-' :: m :: m' :: '-' :: d :: d' :: rest =>
    let month := numberOf [m, m']
    let day := numberOf [d, d']
    if [m, m', d, d'].all Char.isDigit && 4 ≤
      year.length && (year.length == 4 || year.head? != some '0') &&
      numberOf year != 0 && 1 ≤ month && month ≤ 12 && 1 ≤ day && day ≤
        daysOfMonth (numberOf year) month
    then some rest else none
  | _ => none

def isDate (cs : List Char) : Bool := (afterDate? cs).any isZone

/-- The rest after a time of day. The end of a day may be written as its hour twenty-four. -/
def afterTime? : List Char → Option (List Char)
  | h :: h' :: ':' :: m :: m' :: ':' :: s :: s' :: rest =>
    let (fraction, rest) := match rest with
      | '.' :: rest => (some (rest.takeWhile Char.isDigit), rest.dropWhile Char.isDigit)
      | rest => (none, rest)
    let hour := numberOf [h, h']
    let midnight := hour == 24 && numberOf [m, m', s, s'] == 0 && fraction.all (·.all (· == '0'))
    if [h, h', m, m', s, s'].all Char.isDigit && fraction.all (!·.isEmpty) &&
      (midnight || hour < 24 && numberOf [m, m'] < 60 && numberOf [s, s'] < 60)
    then some rest else none
  | _ => none

def isDateTime (cs : List Char) : Bool :=
  match afterDate? cs with
  | some ('T' :: rest) => (afterTime? rest).any isZone
  | _ => false

/-- A text spells a value of a built-in type. White space around it counts for text only. -/
def spells (p : Primitive) (text : String) : Bool :=
  let cs := Text.trimBy Xml.isSpace text.toList
  match p with
  | .string => true
  | .decimal => isDecimal cs
  | .integer => isInteger cs
  | .date => isDate cs
  | .dateTime => isDateTime cs
  | .boolean => isBoolean cs

example : spells .decimal "-.5" ∧ spells .date "2024-02-29Z" ∧ ¬spells .date "2025-02-29" ∧
    spells .dateTime "2025-01-01T24:00:00.0+14:00" ∧ ¬spells .integer "1.0" := by decide +kernel

/-- A text meets a facet; its length is the number of its characters. What follows a pattern is left
open: no text is taken to. -/
def meets (text : String) : Facet → Prop
  | .minLength n => n ≤ text.length
  | .maxLength n => text.length ≤ n
  | .pattern _ => False

/-- A text is a value of a built-in type that is restricted by facets. -/
structure IsValue (p : Primitive) (facets : List Facet) (text : String) : Prop where
  spelled : spells p text = true
  facets : ∀ f ∈ facets, meets text f

/-! ## Elements -/

/-- Attributes are those that are declared, each at most once, and all that are required. An
attribute named `xmlns` would be none but a binding. -/
structure AttributesFit (uses : List AttributeUse) (attributes : List Attribute) : Prop where
  once : (attributes.map fun a => (a.name.uri, a.name.localPart)).Nodup
  declared : ∀ a ∈ attributes, a.name.uri = none ∧ a.name.localPart ≠ "xmlns" ∧
    ∃ use ∈ uses, use.name = a.name.localPart ∧ IsValue use.primitive use.facets a.value
  required : ∀ use ∈ uses, use.required = true →
    ∃ a ∈ attributes, a.name.uri = none ∧ a.name.localPart = use.name

/-- The text in an element that holds no other element. -/
def textIn? (n : Node) : Option String :=
  if n.content.any (·.tag?.isSome) then none
  else some (String.join (n.content.filterMap fun
    | .text chars => some chars
    | _ => none))

/-- A node is no text, or no more than blanks. -/
def isBlankOrElement : Node → Bool
  | .text chars => chars.toList.all Xml.isSpace
  | _ => true

/-- The elements in an element that holds no text but blanks. -/
def elementsIn? (n : Node) : Option (List Node) :=
  if n.content.all isBlankOrElement then some (n.content.filter (·.tag?.isSome)) else none

/-- A number of elements is in a range. -/
def inRange (r : Range) (count : Nat) : Prop :=
  r.lower ≤ count ∧ match r.upper with
    | .finite most => (count : Int) ≤ most
    | .unbounded => True

/-- An element has a name in a namespace or in none. -/
def IsNamed (uri : Option String) (name : String) (n : Node) : Prop :=
  n.tag?.map (fun tag => (tag.uri, tag.localPart)) = some (uri, name)

section
variable (schema : Schema)

/-- The namespace that root elements are declared for. -/
def Schema.targetUri : Option String := schema.render.attribute? "targetNamespace"

/-- The namespace of elements inside of other ones, by the form that the schema sets for them. -/
def Schema.localUri : Option String :=
  if schema.render.attribute? "elementFormDefault" = some "qualified" then schema.targetUri
    else none

mutual
/-- An element may stand where some content is asked for. -/
inductive Admits : Content → Node → Prop
  | builtin {p : Primitive} {n : Node} {text : String} (ha : AttributesFit [] n.attributes)
    (ht : textIn? n = some text) (hv : IsValue p [] text) : Admits (.builtin p) n
  | restricted {facets : List Facet} {n : Node} {text : String} (ha : AttributesFit [] n.attributes)
    (ht : textIn? n = some text) (hv : IsValue .string facets text) : Admits (.restricted facets) n
  | extended {p : Primitive} {uses : List AttributeUse} {n : Node} {text : String}
    (ha : AttributesFit uses n.attributes) (ht : textIn? n = some text) (hv : IsValue p [] text) :
    Admits (.extended p uses) n
  | named {t : TypeDefinition} {n : Node} (ht : t ∈ schema.types) (h : AdmitsBody t.body n) :
    Admits (.named (qualify schema.uri.isSome t.name)) n
/-- An element is of a type. -/
inductive AdmitsBody : TypeBody → Node → Prop
  | restricted {facets : List Facet} {n : Node} {text : String} (ha : AttributesFit [] n.attributes)
    (ht : textIn? n = some text) (hv : IsValue .string facets text) :
    AdmitsBody (.restricted facets) n
  | extended {p : Primitive} {uses : List AttributeUse} {n : Node} {text : String}
    (ha : AttributesFit uses n.attributes) (ht : textIn? n = some text) (hv : IsValue p [] text) :
    AdmitsBody (.extended p uses) n
  | sequence {particles : List Particle} {uses : List AttributeUse} {n : Node}
      {elements : List Node}
    (ha : AttributesFit uses n.attributes) (he : elementsIn? n = some elements)
    (h : AdmitsAll particles elements) : AdmitsBody (.sequence particles uses) n
/-- Elements are those of some particles in turn, of each as many as its range says. -/
inductive AdmitsAll : List Particle → List Node → Prop
  | nil : AdmitsAll [] []
  | cons {p : Particle} {particles : List Particle} {block rest : List Node}
    (hrange : inRange p.range block.length) (hname : ∀ n ∈ block, IsNamed schema.localUri p.name n)
    (h : ∀ n ∈ block, Admits p.content n) (hs : AdmitsAll particles rest) :
    AdmitsAll (p :: particles) (block ++ rest)
end

/-- A document is valid: its root is declared by its name, and is of the type it is declared
with. -/
def IsValid (root : Node) : Prop := ∃ name type, (name, type) ∈ schema.roots ∧
  IsNamed schema.targetUri name root ∧ Admits schema (.named type) root

end

@[simp] theorem targetUri_eq (schema : Schema) : schema.targetUri = schema.uri := by
  unfold Schema.targetUri Schema.render
  cases schema.uri <;> rfl

@[simp] theorem localUri_eq (schema : Schema) : schema.localUri = schema.uri := by
  unfold Schema.localUri
  rw [targetUri_eq]
  unfold Schema.render
  cases schema.uri <;> rfl

end SchemaLoom.Xsd
