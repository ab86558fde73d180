import Mathlib.Tactic.Lemma
import SchemaLoom.JsonSchema.Convert

/-! Induction over shapes, and the schemas of the entries of an object. -/
namespace SchemaLoom
open Profile (Shape)

namespace Profile

mutual
/-- What passes from the entries of an object and from the item of an array holds of every shape. -/
theorem Shape.induction {P : Shape → Prop}
    (object : ∀ entries : List (String × Bool × Shape), (∀ e ∈ entries, P e.2.2) →
    P (.object entries))
    (array : ∀ item, P item → P (.array item)) (single : ∀ type, P (.single type)) :
    ∀ shape, P shape
  | .object entries => object entries (Shape.induction_all object array single entries)
  | .array item => array item (Shape.induction object array single item)
  | .single type => single type
theorem Shape.induction_all {P : Shape → Prop}
    (object : ∀ entries : List (String × Bool × Shape), (∀ e ∈ entries, P e.2.2) →
    P (.object entries))
    (array : ∀ item, P item → P (.array item)) (single : ∀ type, P (.single type)) :
    ∀ entries : List (String × Bool × Shape), ∀ e ∈ entries, P e.2.2
  | [] => fun _ he => absurd he List.not_mem_nil
  | (_, _, shape) :: rest => fun _ he => (List.mem_cons.mp he).elim
      (fun h => h ▸ Shape.induction object array single shape)
      (Shape.induction_all object array single rest _)
end

end Profile

namespace JsonSchema

lemma propertiesOf_eq (entries : List (String × Bool × Shape)) :
    propertiesOf entries = entries.map fun e => (e.1, Json.Value.object (membersOf e.2.2)) := by
  induction entries with
  | nil => rfl
  | cons e rest ih => rw [propertiesOf, ih]; rfl

end JsonSchema
end SchemaLoom
