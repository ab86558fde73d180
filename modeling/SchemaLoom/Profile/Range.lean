import SchemaLoom.Number.Integer
import SchemaLoom.Profile.Attribute
import SchemaLoom.Text.Case

/-!
How often an element occurs. A profile says it by numbers in several spellings, or by flags where no
number is given; ranges of declarations of one element are combined to the least range around them.
-/
namespace SchemaLoom.Profile
open Xml (Node)

/-- The upper end of a range. -/
inductive Bound where
  | finite (n : Int)
  | unbounded
  deriving DecidableEq, Repr

def Bound.text : Bound → String
  | .finite n => Number.text n
  | .unbounded => "unbounded"

structure Range where
  lower : Int
  upper : Bound
  deriving DecidableEq, Repr

namespace Range

def isUnbounded (r : Range) : Bool := r.upper == .unbounded

def isOptional (r : Range) : Bool := r.lower == 0

def text (r : Range) : String := "[" ++ Number.text r.lower ++ "," ++ r.upper.text ++ "]"

/-- A range from its two ends; an upper end below the lower one is no limit. -/
def make (lower : Int) : Bound → Range
  | .finite upper => if upper < lower then ⟨lower, .unbounded⟩ else ⟨lower, .finite upper⟩
  | .unbounded => ⟨lower, .unbounded⟩

end Range

def Bound.join : Bound → Bound → Bound
  | .finite a, .finite b => .finite (max a b)
  | _, _ => .unbounded

def Range.combine (a b : Range) : Range := ⟨min a.lower b.lower, a.upper.join b.upper⟩

/-- The least range around some, of which there is at least one. -/
def Range.combineAll (first : Range) (others : List Range) : Range := others.foldl combine first

/-- The lower end that a text spells: one where it spells no number, and never below zero. -/
def minOfText (raw : String) : Int :=
  match Number.ofText? (Text.strip raw) with
  | some n => max n 0
  | none => 1

/-- The upper end that a text spells: a negative number is no limit, and what is no number is
one. -/
def maxOfText (raw : String) : Bound :=
  if Text.lower (Text.strip raw) == "unbounded" then .unbounded
  else
    match Number.ofText? (Text.strip raw) with
    | some n => if n < 0 then .unbounded else .finite n
    | none => .finite 1

def isTrue (raw : String) : Bool := Text.lower (Text.strip raw) == "true"

def minNames : List String := ["minOccurs", "minOccurrence", "min_occurs", "min"]
def maxNames : List String := ["maxOccurs", "maxOccurrence", "max_occurs", "max"]
def requiredNames : List String := ["required", "isRequired", "mandatory"]
def repeatableNames : List String := ["repeatable", "isRepeating", "looping"]

/-- The element or attribute says that it must be present. -/
def isRequired (n : Node) : Bool := (filled? n requiredNames).any isTrue

/-- The lower end of an element: a number first, then the flag, which must be yes where it is
present. -/
def minOf (n : Node) : Int :=
  match filled? n minNames with
  | some raw => minOfText raw
  | none =>
    match filled? n requiredNames with
    | some flag => if isTrue flag then 1 else 0
    | none => 1

/-- The upper end of an element: a number first, then the flag. -/
def maxOf (n : Node) : Bound :=
  match filled? n maxNames with
  | some raw => maxOfText raw
  | none => if (filled? n repeatableNames).any isTrue then .unbounded else .finite 1

def rangeOf (n : Node) : Range := .make (minOf n) (maxOf n)

example : minOfText "-3" = 0 ∧ maxOfText "-3" = .unbounded ∧ maxOfText "x" = .finite 1 := by
  decide +kernel

end SchemaLoom.Profile
