import Mathlib.Data.List.Forall2
import SchemaLoom.JsonSchema.Draft
import SchemaLoom.JsonSchema.Rule

/-! What schemas of JSON say of values by the keywords `type`, `properties`, `required` and `items`,
and values that show all of a schema. -/
namespace SchemaLoom.JsonSchema
open Json (Value)

/-- The types that schemas of a draft name, null apart. As of the sixth draft a number is an integer
if its fraction is zero. -/
def Draft.kinds : Draft → List Kind
  | draft04 => [.array, .boolean, .integer, .number, .object, .string]
  | _ => [.array, .boolean, .integral, .number, .object, .string]

/-- A value is of the type of a name. -/
def HasType (d : Draft) (name : String) (v : Value) : Prop :=
  name = "null" ∧ v = .null ∨ ∃ k ∈ d.kinds, k.name = name ∧ k.admits v = true

/-- What the keyword `type` says: the name of a type, or of several of which one is right. -/
def AllowsType (d : Draft) : Value → Value → Prop
  | .string name, v => HasType d name v
  | .array names, v => ∃ name, .string name ∈ names ∧ HasType d name v
  | _, _ => False

/-- The schema of the item at a position by the keyword `items`: one for all, or one for each of the
first items. -/
def itemSchema? (keyword : Value) (position : Nat) : Option Value :=
  match keyword with
  | .array schemas => schemas[position]?
  | schema => some schema

/-- A value is valid against a schema of a draft. -/
inductive IsValid (d : Draft) : Value → Value → Prop
  /-- A schema that everything is valid against. -/
  | anything (v : Value) : IsValid d (.bool true) v
  | keywords {members : List (String × Value)} {v : Value}
    (type : ∀ keyword, members.lookup "type" = some keyword → AllowsType d keyword v)
    (properties : ∀ known name schema part, members.lookup "properties" = some (.object known) →
      known.lookup name = some schema → v.member? name = some part → IsValid d schema part)
    (required : ∀ names name parts, members.lookup "required" = some (.array names) →
      .string name ∈ names → v = .object parts → ∃ part, parts.lookup name = some part)
    (items : ∀ keyword position schema parts part, members.lookup "items" = some keyword →
      itemSchema? keyword position = some schema → v = .array parts → parts[position]? = some part →
        IsValid d schema part) :
    IsValid d (.object members) v

/-- A value shows all of a schema: an object has the properties of the schema and no other members,
each once and in the same order, and an array has one item. -/
inductive Shows : Value → Value → Prop
  | object {schema : Value} {known parts : List (String × Value)}
    (properties : schema.member? "properties" = some (.object known))
    (names : parts.map Prod.fst = known.map Prod.fst) (once : (parts.map Prod.fst).Nodup)
    (values : List.Forall₂ Shows (known.map Prod.snd) (parts.map Prod.snd)) :
    Shows schema (.object parts)
  | array {schema items part : Value} (keyword : schema.member? "items" = some items)
    (item : Shows items part) : Shows schema (.array [part])
  | single {schema v : Value} (noObject : ∀ parts, v ≠ .object parts)
    (noArray : ∀ parts, v ≠ .array parts) : Shows schema v

end SchemaLoom.JsonSchema
