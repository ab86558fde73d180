import SchemaLoom.Proofs.Xml.Reader

/-! Documents that are read are not higher than the limit: no element stands deeper than that, since
none is opened there. -/
namespace SchemaLoom.Xml

mutual
/-- How many elements stand in one another. -/
def Node.height : Node → Nat
  | .element _ _ _ content => Node.heightAll content + 1
  | _ => 0
def Node.heightAll : List Node → Nat
  | [] => 0
  | n :: rest => max n.height (Node.heightAll rest)
end

lemma Node.heightAll_le_iff {ns : List Node} {k : Nat} :
    Node.heightAll ns ≤ k ↔ ∀ n ∈ ns, n.height ≤ k := by
  induction ns with
  | nil => simp [Node.heightAll]
  | cons n ns ih => simp [Node.heightAll, Nat.max_le, ih]

/-- What stands in an element is lower than the element. -/
lemma Node.height_lt_of_mem {n k : Node} (h : k ∈ n.content) : k.height < n.height := by
  cases n with
  | element tag bindings attributes content =>
    have hle := Node.heightAll_le_iff.mp (Nat.le_refl (Node.heightAll content)) k h
    rw [Node.height]
    omega
  | text chars => cases h
  | instruction target => cases h

/-- Nothing in a document is higher than the document. -/
lemma Node.height_le_of_mem_walk {n m : Node} (h : m ∈ n.walk) : m.height ≤ n.height := by
  induction n using Node.induction with
  | h n ih =>
    obtain rfl | ⟨k, hk, hm⟩ := Node.mem_walk_iff.mp h
    · exact Nat.le_refl _
    · exact Nat.le_trans (ih k hk hm) (Nat.le_of_lt (Node.height_lt_of_mem hk))

lemma Node.height_of_tag_eq_none {n : Node} (h : n.tag? = none) : n.height = 0 := by
  cases n with
  | element tag bindings attributes content => cases h
  | text chars => rfl
  | instruction target => rfl

/-- Open elements that leave room below the limit for all that stands in them. -/
def Low : List OpenElement → Prop
  | [] => True
  | e :: outer => outer.length < depthLimit ∧
    (∀ n ∈ e.content, n.height + outer.length < depthLimit) ∧ Low outer

lemma Low.length_le {opened : List OpenElement} (h : Low opened) : opened.length ≤ depthLimit := by
  cases opened with
  | nil => exact Nat.zero_le _
  | cons e outer => exact h.1

lemma height_closed {e : OpenElement} {outer : List OpenElement} (h : Low (e :: outer)) :
    e.closed.height + outer.length ≤ depthLimit := by
  obtain ⟨houter, hcontent, -⟩ := h
  have hall : Node.heightAll e.content.reverse ≤ depthLimit - outer.length - 1 := by
    rw [Node.heightAll_le_iff]
    intro n hn
    have hlow := hcontent n (List.mem_reverse.mp hn)
    omega
  rw [OpenElement.closed, Node.height]
  omega

lemma Low.adding {e : OpenElement} {outer : List OpenElement} (h : Low (e :: outer)) {n : Node}
    (hn : n.height + outer.length < depthLimit) : Low (e.adding n :: outer) :=
  ⟨h.1, List.forall_mem_cons.mpr ⟨hn, h.2.1⟩, h.2.2⟩

/-- A piece keeps the open elements and the root low. -/
lemma low_takes {dt : DocumentType} {opened opened' : List OpenElement} {root root' : Option Node}
    {p : Piece} (hp : p.Fit) (h : Low opened ∧ ∀ n ∈ root, n.height ≤ depthLimit)
    (htakes : Takes dt opened root p opened' root') :
    Low opened' ∧ ∀ n ∈ root', n.height ≤ depthLimit := by
  obtain ⟨hopened, hroot⟩ := h
  cases htakes with
  | opening hdepth he =>
    have hempty := (fresh_openElement hp _ he).content
    exact ⟨⟨hdepth, by simp [hempty], hopened⟩, hroot⟩
  | closingRoot =>
    have hheight := height_closed hopened
    refine ⟨trivial, fun n hn => ?_⟩
    cases hn
    exact hheight
  | closing =>
    have hheight := height_closed hopened
    rw [List.length_cons] at hheight
    exact ⟨hopened.2.2.adding (by omega), hroot⟩
  | adding hn =>
    have hheight := Node.height_of_tag_eq_none hn
    exact ⟨hopened.adding (by simpa [hheight] using hopened.1), hroot⟩
  | passing => exact ⟨hopened, hroot⟩

/-- A document that is read is not higher than the limit. -/
theorem height_ofOctets {octets : List UInt8} {document : Node}
    (h : ofOctets? octets = some document) : document.height ≤ depthLimit := by
  obtain ⟨dt, pieces, hpieces, h⟩ := exists_pieces_of_ofOctets h
  have hstart : Low [] ∧ ∀ n ∈ (none : Option Node), n.height ≤ depthLimit := ⟨trivial, by simp⟩
  exact (assemble_keeps low_takes hpieces hstart h).2 document rfl

end SchemaLoom.Xml
