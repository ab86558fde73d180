import Mathlib.Tactic.Lemma
import SchemaLoom.Xml.Naming
import SchemaLoom.Xml.Tree

/-! Walking a document reaches all that is below its nodes; documents whose attributes have values
that can stand in a document. -/
namespace SchemaLoom.Xml
namespace Node

mutual
/-- What passes from the content of an element to the element holds of every node. -/
theorem induction {P : Node → Prop} (h : ∀ n, (∀ k ∈ n.content, P k) → P n) : ∀ n, P n
  | .element tag bindings attributes content =>
    h (.element tag bindings attributes content) (induction_all h content)
  | .text chars => h (.text chars) fun _ hk => absurd hk List.not_mem_nil
  | .instruction target => h (.instruction target) fun _ hk => absurd hk List.not_mem_nil
theorem induction_all {P : Node → Prop} (h : ∀ n, (∀ k ∈ n.content, P k) → P n) :
    ∀ content : List Node, ∀ k ∈ content, P k
  | [] => fun _ hk => absurd hk List.not_mem_nil
  | n :: rest => fun _ hk => (List.mem_cons.mp hk).elim (fun he => he ▸ induction h n)
      (induction_all h rest _)
end

theorem mem_walkAll {m : Node} {content : List Node} :
    m ∈ walkAll content ↔ ∃ n ∈ content, m ∈ walk n := by
  induction content with
  | nil => simp [walkAll]
  | cons n rest ih => simp [walkAll, ih]

theorem mem_walk_self (n : Node) : n ∈ n.walk := by cases n <;> simp [walk]

theorem mem_walk_iff {m n : Node} : m ∈ n.walk ↔ m = n ∨ ∃ k ∈ n.content, m ∈ k.walk := by
  cases n with
  | element tag bindings attributes content => simp [walk, mem_walkAll, Node.content]
  | text chars => simp [walk, Node.content]
  | instruction target => simp [walk, Node.content]

/-- What is below a node that is below another one is below that one. -/
theorem mem_walk_trans {k m n : Node} (hm : m ∈ n.walk) (hk : k ∈ m.walk) : k ∈ n.walk := by
  induction n using induction with
  | h n ih =>
    obtain rfl | ⟨j, hj, hm⟩ := mem_walk_iff.mp hm
    · exact hk
    · exact mem_walk_iff.mpr (.inr ⟨j, hj, ih j hj hm⟩)

/-- All attributes in a document have values that a document can hold. -/
def IsLegal (n : Node) : Prop := ∀ m ∈ n.walk, ∀ a ∈ m.attributes, isLegalText a.value = true

theorem isLegal_iff {n : Node} : n.IsLegal ↔
    (∀ a ∈ n.attributes, isLegalText a.value = true) ∧ ∀ k ∈ n.content, k.IsLegal := by
  constructor
  · intro h
    refine ⟨fun a ha => h n n.mem_walk_self a ha, fun k hk m hm a ha => ?_⟩
    exact h m (mem_walk_iff.mpr (.inr ⟨k, hk, hm⟩)) a ha
  · rintro ⟨hself, hbelow⟩ m hm a ha
    obtain rfl | ⟨k, hk, hm⟩ := mem_walk_iff.mp hm
    · exact hself a ha
    · exact hbelow k hk m hm a ha

theorem IsLegal.childrenNamed {n m : Node} {name : String} (h : n.IsLegal)
    (hm : m ∈ n.childrenNamed name) : m.IsLegal := (isLegal_iff.mp h).2 m (List.mem_filter.mp hm).1

theorem IsLegal.of_mem_walk {n m : Node} (h : n.IsLegal) (hm : m ∈ n.walk) : m.IsLegal :=
  fun k hk => h k (mem_walk_trans hm hk)

theorem IsLegal.attribute {n : Node} {name value : String} (h : n.IsLegal)
    (hv : n.attribute? name = some value) : isLegalText value = true := by
  obtain ⟨a, ha, rfl⟩ := Option.map_eq_some_iff.mp hv
  exact (isLegal_iff.mp h).1 a (List.mem_of_find?_eq_some ha)

end Node
end SchemaLoom.Xml
