import SchemaLoom.Proofs.Xml.Tree
import SchemaLoom.Xml.Writer

/-! The layout of a document as a part of its tree: blanks in front of every tag, save where other
text stands. -/
namespace SchemaLoom.Xml

/-- The blanks of a new line as a node, if there is a layout. -/
def blanks (level : Option Nat) : List Node :=
  (level.map fun _ => Node.text (String.ofList (newLine level))).toList

lemma isSpace_of_mem_newLine {level : Option Nat} {c : Char} (h : c ∈ newLine level) :
    isSpace c = true := by
  cases level with
  | none => cases h
  | some n =>
    obtain rfl | h := List.mem_cons.mp h
    · rfl
    · rw [List.eq_of_mem_replicate h]
      rfl

lemma eq_of_mem_blanks {level : Option Nat} {m : Node} (h : m ∈ blanks level) :
    m = .text (String.ofList (newLine level)) := by
  cases level with
  | none => cases h
  | some n => exact List.mem_singleton.mp h

namespace Node

/-- The level of the content of an element, if it is laid out. -/
def innerLevel (level : Option Nat) (content : List Node) : Option Nat :=
  if content.isEmpty || content.any isText then none else level

mutual
/-- A tree with the blanks of its layout in it. -/
def laidOut (level : Option Nat) : Node → Node
  | .text chars => .text chars
  | .instruction target => .instruction target
  | .element tag bindings attributes content =>
    let outer := innerLevel level content
    .element tag bindings attributes (laidOutAll (outer.map (· + 1)) content ++ blanks outer)
def laidOutAll (level : Option Nat) : List Node → List Node
  | [] => []
  | n :: rest => blanks level ++ n.laidOut level :: laidOutAll level rest
end

theorem laidOut_none (n : Node) : n.laidOut none = n := by
  induction n using induction with
  | h n ih =>
    cases n with
    | text chars => rfl
    | instruction target => rfl
    | element tag bindings attributes content =>
      have hall : ∀ ns ⊆ content, laidOutAll none ns = ns := by
        intro ns
        induction ns with
        | nil => exact fun _ => rfl
        | cons n rest ihrest =>
          intro hsub
          obtain ⟨hn, hrest⟩ := List.cons_subset.mp hsub
          rw [laidOutAll, ih n hn, ihrest hrest]
          rfl
      have hinner : innerLevel none content = none := by simp [innerLevel]
      rw [laidOut, hinner, Option.map_none, hall content (List.Subset.refl _)]
      simp [blanks]

@[simp] lemma tag_laidOut (level : Option Nat) (n : Node) : (n.laidOut level).tag? = n.tag? := by
  cases n <;> rfl

@[simp] lemma attributes_laidOut (level : Option Nat) (n : Node) :
    (n.laidOut level).attributes = n.attributes := by
  cases n <;> rfl

lemma content_laidOut (level : Option Nat) (n : Node) : (n.laidOut level).content =
    laidOutAll ((innerLevel level n.content).map (· + 1)) n.content ++
      blanks (innerLevel level n.content) := by
  cases n <;> simp [laidOut, content, laidOutAll, innerLevel, blanks]

/-- Blanks are the only text that a layout puts between nodes. -/
lemma mem_laidOutAll {level : Option Nat} {ns : List Node} {m : Node}
    (h : m ∈ laidOutAll level ns) :
    m ∈ blanks level ∨ ∃ n ∈ ns, m = n.laidOut level := by
  induction ns with
  | nil => cases h
  | cons n rest ih =>
    obtain h | h := List.mem_append.mp h
    · exact .inl h
    obtain rfl | h := List.mem_cons.mp h
    · exact .inr ⟨n, by simp, rfl⟩
    obtain h | ⟨k, hk, rfl⟩ := ih h
    · exact .inl h
    · exact .inr ⟨k, by simp [hk], rfl⟩

/-- Elements are laid out where there is no text between them. -/
lemma innerLevel_eq {level : Option Nat} {content : List Node}
    (h : ∀ n ∈ content, n.tag?.isSome = true) (hne : content ≠ []) :
    innerLevel level content = level := by
  have htext : content.any isText = false := by
    rw [List.any_eq_false]
    intro n hn
    have helement := h n hn
    cases n with
    | text chars => cases helement
    | instruction target => cases helement
    | element tag bindings attributes content => simp [isText]
  simp [innerLevel, htext, hne]

lemma filter_blanks (level : Option Nat) : (blanks level).filter (·.tag?.isSome) = [] := by
  cases level <;> rfl

lemma filter_laidOutAll {level : Option Nat} {ns : List Node} (h : ∀ n ∈ ns, n.tag?.isSome = true) :
    (laidOutAll level ns).filter (·.tag?.isSome) = ns.map (·.laidOut level) := by
  induction ns with
  | nil => rfl
  | cons n rest ih =>
    have hn : n.tag?.isSome = true := h n (by simp)
    rw [laidOutAll, List.filter_append, filter_blanks, List.filter_cons, tag_laidOut, hn,
      ih fun k hk => h k (by simp [hk])]
    rfl

/-! ## Writing a laid out tree -/

lemma writeAll_append (level : Option Nat) (xs ys : List Node) :
    writeAll level (xs ++ ys) = writeAll level xs ++ writeAll level ys := by
  induction xs with
  | nil => rfl
  | cons n rest ih => simp [writeAll, ih]

lemma writeAll_blanks (level : Option Nat) : writeAll none (blanks level) = newLine level := by
  cases level with
  | none => rfl
  | some n =>
    have hspaces (k : Nat) : (List.replicate k ' ').flatMap textChar = List.replicate k ' ' := by
      induction k with
      | zero => rfl
      | succ k ih => rw [List.replicate_succ, List.flatMap_cons, ih]; rfl
    simp [blanks, writeAll, write, newLine, hspaces]
    rfl

/-- A tree is laid out on lines as the tree with the blanks in it is written on one line. -/
theorem write_laidOut (n : Node) : ∀ level, (n.laidOut level).write none = n.write level := by
  induction n using induction with
  | h n ih =>
    intro level
    cases n with
    | text chars => rfl
    | instruction target => rfl
    | element tag bindings attributes content =>
      have hall (l : Option Nat) : ∀ ns ⊆ content, writeAll none (laidOutAll l ns) =
          writeAll l ns := by
        intro ns
        induction ns with
        | nil => exact fun _ => rfl
        | cons n rest ihrest =>
          intro hsub
          obtain ⟨hn, hrest⟩ := List.cons_subset.mp hsub
          rw [laidOutAll, writeAll_append, writeAll_blanks, writeAll, writeAll,
            ih n hn, ihrest hrest]
          simp [newLine]
      by_cases hempty : content = []
      · subst hempty
        rfl
      have hinner : innerLevel level content = if content.any isText then none else level := by
        simp [innerLevel, hempty]
      have hfull (l outer : Option Nat) :
          (laidOutAll l content ++ blanks outer).isEmpty = false := by
        obtain ⟨n, rest, rfl⟩ := List.exists_cons_of_ne_nil hempty
        simp [laidOutAll]
      have hcontent : content.isEmpty = false := by simpa using hempty
      rw [laidOut, hinner, write, write]
      simp only [hfull, hcontent, Bool.false_eq_true, if_false, ite_self, Option.map_none,
        writeAll_append, writeAll_blanks, hall _ content (List.Subset.refl _)]
      simp [newLine]

theorem document_eq (n : Node) : n.document =
    "<?xml version='1.0' encoding='UTF-8'?>\n" ++ ((n.laidOut (some 0)).inline ++ "\n") := by
  rw [inline, write_laidOut]
  rfl

end Node
end SchemaLoom.Xml
