import SchemaLoom.Proofs.Xml.Scanning
import SchemaLoom.Xml.Reader

/-! Tags that are understood where they stand are assembled to the tree that they were written for;
the blanks between them leave no trace. -/
namespace SchemaLoom.Xml

/-- A tree of at most some height, each of whose opening tags is understood in the scope around it,
and whose elements hold elements or some words. -/
inductive Readable : Nat → Scope → Node → Prop
  | element {height : Nat} {scope : Scope} {tag : QName} {bindings : List (String × String)}
    {attributes : List Attribute} {content : List Node}
    (opens : openElement? .none scope tag.written.toList
    (readAttributes (tagAttributes bindings attributes)) =
      some ⟨tag.written.toList, tag, bindings, attributes, bindings ++ scope, []⟩)
    (below : ∀ n ∈ content, Readable height (bindings ++ scope) n) :
    Readable (height + 1) scope (.element tag bindings attributes content)
  | leaf {height : Nat} {scope : Scope} {tag : QName} {bindings : List (String × String)}
    {attributes : List Attribute} {chars : String}
    (opens : openElement? .none scope tag.written.toList
      (readAttributes (tagAttributes bindings attributes)) =
        some ⟨tag.written.toList, tag, bindings, attributes, bindings ++ scope, []⟩)
    (nonempty : chars ≠ "") (worded : Worded chars) :
    Readable (height + 1) scope (.element tag bindings attributes [.text chars])

/-- An open element with more nodes at the end of its content. -/
def OpenElement.holding (e : OpenElement) (ns : List Node) : OpenElement :=
  { e with content := ns.reverse ++ e.content }

lemma OpenElement.holding_holding (e : OpenElement) (ns ms : List Node) :
    (e.holding ns).holding ms = e.holding (ns ++ ms) := by simp [holding]

/-- The scope inside of the innermost open element. -/
def scopeOf (opened : List OpenElement) : Scope := (opened.head?.map (·.scope)).getD []

section
variable {opened : List OpenElement} {e : OpenElement} {ps : List Piece}

lemma assemble_opening {name : List Char} {attributes : List (List Char × List Char)}
    (hdepth : opened.length < depthLimit) :
    assemble? .none opened none (.opening name attributes :: ps) =
      (openElement? .none (scopeOf opened) name attributes).bind fun e =>
      assemble? .none (e :: opened) none ps := by
  rw [assemble?, if_neg (by simp [Nat.not_le.mpr hdepth])]
  unfold scopeOf
  dsimp only
  cases openElement? .none ((opened.head?.map (·.scope)).getD []) name attributes <;> rfl

/-- Blanks leave no trace where elements stand before them or tags that open elements behind. -/
lemma assemble_blank {level : Nat} (htext : e.content.any isText = false)
    (hnext : (∀ name more, ps ≠ .closing name :: more) ∨ e.content ≠ []) :
    assemble? .none (e :: opened) none (blankPiece level :: ps) =
    assemble? .none (e :: opened) none ps := by
  have hlast : e.content.getLast?.any isText = false := by
    cases hl : e.content.getLast? with
    | none => rfl
    | some n => simpa using List.any_eq_false.mp htext n (List.mem_of_getLast? hl)
  have hspace : (newLine (some level)).all isSpace = true :=
    List.all_eq_true.mpr fun c hc => isSpace_of_mem_newLine hc
  have hlayout : isLayout e (newLine (some level)) true ps.head? = true := by
    unfold isLayout
    simp only [hspace, hlast, Bool.true_and, Bool.not_false]
    split
    · rename_i name heq
      obtain ⟨more, rfl⟩ := List.head?_eq_some_iff.mp heq
      obtain hnext | hne := hnext
      · exact absurd rfl (hnext name more)
      · simpa using hne
    · rfl
  rw [blankPiece, assemble?]
  simp only [hlayout, Bool.or_true, if_true]

/-- Words stay in their element. -/
lemma assemble_words {chars : String} (hne : chars ≠ "") (hwords : Worded chars) :
    assemble? .none (e :: opened) none ((Node.text chars).textPieces ++ ps) =
      assemble? .none (e.holding [.text chars] :: opened) none ps := by
  obtain ⟨c, cs, hcs⟩ := List.exists_cons_of_ne_nil (mt String.toList_eq_nil_iff.mp hne)
  have hc : isWordChar c = true := hwords c (by simp [hcs])
  have hspace : isSpace c = false := by
    have hmem : c ∉ [' ', '\t', '\n', '\r'] := not_mem_of_all (by decide) hc
    simp only [List.mem_cons, List.not_mem_nil, or_false, not_or] at hmem
    simp [isSpace, hmem]
  have hlayout (next : Option Piece) : isLayout e chars.toList true next = false := by
    simp [isLayout, hcs, hspace]
  have hnonempty : chars.toList.isEmpty = false := by simp [hcs]
  rw [Node.textPieces, if_neg hne, List.singleton_append, assemble?]
  simp only [hlayout, hnonempty, Bool.or_false, Bool.false_eq_true, if_false, String.ofList_toList]
  rfl

lemma assemble_closing {parent : OpenElement} :
    assemble? .none (e :: parent :: opened) none (.closing e.written :: ps) =
      assemble? .none (parent.holding [e.closed] :: opened) none ps := by
  rw [assemble?]
  simp [OpenElement.holding]

lemma assemble_closing_root :
    assemble? .none [e] none (.closing e.written :: ps) =
    assemble? .none [] (some e.closed) ps := by
  rw [assemble?]
  simp

end

/-- The pieces of an element put it into the innermost open element. -/
def Assembles (height : Nat) (scope : Scope) (n : Node) : Prop :=
  ∀ (level : Nat) (e : OpenElement) (opened : List OpenElement) (ps : List Piece),
    e.scope = scope → (e :: opened).length + height ≤ depthLimit →
    assemble? .none (e :: opened) none (n.pieces level ++ ps) =
      assemble? .none (e.holding [n] :: opened) none ps

/-- What stands between the tags of an element becomes its content. -/
def Fills (height : Nat) (scope : Scope) (content : List Node) : Prop :=
  ∀ (level : Nat) (e : OpenElement) (opened : List OpenElement) (ps : List Piece),
    e.scope = scope → e.content = [] → (e :: opened).length + height ≤ depthLimit →
    assemble? .none (e :: opened) none
      (inside content (Node.piecesAll (level + 1) content ++ [blankPiece level]) ++ ps) =
      assemble? .none (e.holding content :: opened) none ps

section
variable {height : Nat} {scope : Scope} {e : OpenElement} {opened : List OpenElement}
  {ps : List Piece}

lemma Readable.isText_eq {n : Node} (h : Readable height scope n) : isText n = false := by
  cases h <;> rfl

lemma Readable.writer_isText_eq {n : Node} (h : Readable height scope n) : n.isText = false := by
  cases h <;> rfl

lemma Readable.pieces_ne_closing {n : Node} (h : Readable height scope n) (level : Nat)
    (ps : List Piece) (name : List Char) (more : List Piece) :
    n.pieces level ++ ps ≠ .closing name :: more := by
  cases h <;> simp [Node.pieces]

/-- Elements are put into an open element one after the other. -/
lemma assemble_all {ns : List Node}
    (h : ∀ n ∈ ns, Readable height scope n ∧ Assembles height scope n)
    (htext : e.content.any isText = false) (hscope : e.scope = scope)
    (hdepth : (e :: opened).length + height ≤ depthLimit) (level : Nat) :
    assemble? .none (e :: opened) none (Node.piecesAll level ns ++ ps) =
      assemble? .none (e.holding ns :: opened) none ps := by
  induction ns generalizing e with
  | nil => rfl
  | cons n ns ih =>
    obtain ⟨⟨hn, hassembles⟩, hns⟩ := List.forall_mem_cons.mp h
    have hmore : (e.holding [n]).content.any isText = false := by
      simp [OpenElement.holding, hn.isText_eq, htext]
    rw [Node.piecesAll, List.cons_append, List.append_assoc,
      assemble_blank htext (.inl (hn.pieces_ne_closing level _)),
      hassembles level e opened _ hscope hdepth,
      ih hns hmore hscope hdepth, OpenElement.holding_holding, List.singleton_append]

lemma fills_elements {content : List Node}
    (h : ∀ n ∈ content, Readable height scope n ∧ Assembles height scope n) :
    Fills height scope content := by
  intro level e opened ps hscope hempty hdepth
  by_cases hne : content = []
  · subst hne
    rfl
  · have hfull : (e.holding content).content.any isText = false := by
      simp only [OpenElement.holding, hempty, List.append_nil, List.any_reverse, List.any_eq_false]
      intro n hn
      simp [(h n hn).1.isText_eq]
    have htext : content.any Node.isText = false := by
      rw [List.any_eq_false]
      intro n hn
      simp [(h n hn).1.writer_isText_eq]
    have hheld : (e.holding content).content ≠ [] := by simp [OpenElement.holding, hne]
    rw [inside_elements hne htext, List.append_assoc,
      assemble_all h (by rw [hempty]; rfl) hscope hdepth]
    exact assemble_blank hfull (.inr hheld)

lemma fills_words {chars : String} (hne : chars ≠ "") (hwords : Worded chars) :
    Fills height scope [.text chars] := by
  intro level e opened ps _ _ _
  rw [inside_text]
  exact assemble_words hne hwords

section
variable {tag : QName} {bindings : List (String × String)} {attributes : List Attribute}
  {content : List Node}
  (hopens : openElement? .none scope tag.written.toList
    (readAttributes (tagAttributes bindings attributes)) =
      some ⟨tag.written.toList, tag, bindings, attributes, bindings ++ scope, []⟩)
  (hfills : Fills height (bindings ++ scope) content)
include hopens hfills

/-- An element whose tag is understood is assembled with what stands between its tags. -/
lemma assembles_element :
    Assembles (height + 1) scope (.element tag bindings attributes content) := by
  intro level e opened ps hscope hdepth
  have hinner : scopeOf (e :: opened) = scope := hscope
  rw [List.length_cons] at hdepth
  rw [Node.pieces, List.cons_append, List.append_assoc, assemble_opening (by simp; omega), hinner,
    hopens, Option.bind_some, hfills _ _ _ _ rfl rfl (by simp; omega), List.singleton_append]
  refine assemble_closing.trans ?_
  simp [OpenElement.closed, OpenElement.holding]

lemma assemble_root (hscope : scope = []) (hheight : height + 1 ≤ depthLimit) (level : Nat) :
    assemble? .none [] none ((Node.element tag bindings attributes content).pieces level ++
      [blankPiece 0]) = some (.element tag bindings attributes content) := by
  have hinner : scopeOf [] = scope := hscope.symm
  have hend (root : Node) : assemble? .none [] (some root) [blankPiece 0] = some root := by
    rw [blankPiece, assemble?]
    · rfl
  rw [Node.pieces, List.cons_append, List.append_assoc, assemble_opening (by decide), hinner,
    hopens, Option.bind_some, hfills _ _ _ _ rfl rfl (by simp; omega), List.singleton_append]
  refine assemble_closing_root.trans ?_
  rw [hend]
  simp [OpenElement.closed, OpenElement.holding]

end

/-- A tree whose tags are understood is put into the open element around it. -/
theorem assembles_of_readable {n : Node} (h : Readable height scope n) :
    Assembles height scope n := by
  induction h with
  | element opens below ih =>
    exact assembles_element opens (fills_elements fun n hn => ⟨below n hn, ih n hn⟩)
  | leaf opens nonempty worded => exact assembles_element opens (fills_words nonempty worded)

/-- A tree whose tags are understood is assembled to itself, blanks behind it or not. -/
theorem assemble_of_readable {n : Node} (h : Readable height [] n) (hheight : height ≤ depthLimit)
    (level : Nat) : assemble? .none [] none (n.pieces level ++ [blankPiece 0]) = some n := by
  cases h with
  | element opens below =>
    have hfills := fills_elements fun n hn => ⟨below n hn, assembles_of_readable (below n hn)⟩
    exact assemble_root opens hfills rfl hheight level
  | leaf opens nonempty worded =>
    exact assemble_root opens (fills_words nonempty worded) rfl hheight level

end
end SchemaLoom.Xml
