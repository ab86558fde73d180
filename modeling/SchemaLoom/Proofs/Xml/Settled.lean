import SchemaLoom.Proofs.Xml.RoundTrip

/-! An empty text leaves no trace in a document: a tree is written to the pieces of the tree without
such texts, and is read back as that. -/
namespace SchemaLoom.Xml
namespace Node

def isEmptyText : Node → Bool
  | .text chars => chars = ""
  | _ => false

mutual
/-- A tree without the empty texts in it. -/
def settled : Node → Node
  | .element tag bindings attributes content =>
    .element tag bindings attributes (settledAll content)
  | .text chars => .text chars
  | .instruction target => .instruction target
def settledAll : List Node → List Node
  | [] => []
  | n :: rest => if n.isEmptyText then settledAll rest else n.settled :: settledAll rest
end

@[simp] lemma tag_settled (n : Node) : n.settled.tag? = n.tag? := by
  cases n <;> rfl

@[simp] lemma attributes_settled (n : Node) : n.settled.attributes = n.attributes := by
  cases n <;> rfl

lemma content_settled (n : Node) : n.settled.content = settledAll n.content := by
  cases n <;> rfl

lemma isEmptyText_of_tag {n : Node} (h : n.tag?.isSome = true) : n.isEmptyText = false := by
  cases n with
  | element tag bindings attributes content => rfl
  | text chars => cases h
  | instruction target => cases h

/-- Of some nodes those stay that are no empty texts. -/
lemma settledAll_eq (ns : List Node) :
    settledAll ns = (ns.filter fun n => !n.isEmptyText).map settled := by
  induction ns with
  | nil => rfl
  | cons n ns ih =>
    rw [settledAll, ih]
    cases hn : n.isEmptyText with
    | true => simp [hn]
    | false => simp [hn]

lemma mem_settledAll {m : Node} {ns : List Node} :
    m ∈ settledAll ns ↔ ∃ n ∈ ns, n.isEmptyText = false ∧ n.settled = m := by
  simp [settledAll_eq, and_assoc]

/-- Elements all stay. -/
lemma settledAll_eq_map {ns : List Node} (h : ∀ n ∈ ns, n.tag?.isSome = true) :
    settledAll ns = ns.map settled := by
  have hall : ∀ n ∈ ns, (!n.isEmptyText) = true := fun n hn => by
    rw [isEmptyText_of_tag (h n hn)]
    rfl
  rw [settledAll_eq, List.filter_eq_self.mpr hall]

lemma settledAll_text (chars : String) :
    settledAll [.text chars] = if chars = "" then [] else [.text chars] := by
  simp [settledAll, isEmptyText, settled]

end Node

lemma Tagged.tag_isSome {n : Node} (h : Tagged n) : n.tag?.isSome = true := by
  cases h <;> rfl

/-- A tree is laid out in the same pieces without its empty texts. -/
theorem pieces_settled {n : Node} (h : Tagged n) :
    ∀ level, n.settled.pieces level = n.pieces level := by
  induction h with
  | @element tag bindings attributes content name named fit below ih =>
    intro level
    have hall : ∀ ns ⊆ content,
        Node.piecesAll (level + 1) (ns.map Node.settled) = Node.piecesAll (level + 1) ns := by
      intro ns
      induction ns with
      | nil => exact fun _ => rfl
      | cons n ns ihns =>
        intro hsub
        obtain ⟨hn, hns⟩ := List.cons_subset.mp hsub
        simp only [List.map_cons, Node.piecesAll, ih n hn, ihns hns]
    rw [Node.settled, Node.settledAll_eq_map fun n hn => (below n hn).tag_isSome]
    by_cases hne : content = []
    · subst hne
      rfl
    · have htext : (content.map Node.settled).any Node.isText = false := by
        rw [List.any_map, List.any_eq_false]
        intro n hn
        cases below n hn <;> simp [Node.settled, Node.isText]
      rw [Node.pieces, Node.pieces, inside_elements (by simpa using hne) htext,
        inside_elements hne (Tagged.no_text below), hall content (List.Subset.refl _)]
  | @leaf tag bindings attributes chars name named fit worded =>
    intro level
    rw [Node.settled, Node.settledAll_text, Node.pieces, Node.pieces, inside_text, Node.textPieces]
    split
    · rfl
    · rename_i hne
      rw [inside_text, Node.textPieces, if_neg hne]

/-- A tree that can be written, and is understood without its empty texts, is read back without
them. -/
theorem ofText_document_settled {n : Node} {height : Nat} (h : Tagged n)
    (hn : Readable height [] n.settled) (hheight : height ≤ depthLimit) :
    ofText? n.document = some n.settled := by
  rw [ofText_document h, ← pieces_settled h, assemble_of_readable hn hheight]

end SchemaLoom.Xml
