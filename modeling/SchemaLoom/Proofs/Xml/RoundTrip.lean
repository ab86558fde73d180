import SchemaLoom.Proofs.Text.Reading
import SchemaLoom.Proofs.Xml.Assembly

/-! A document that is written is read back as its tree. -/
namespace SchemaLoom.Xml

/-! ## Octets and the declaration -/

/-- What every document begins with. -/
def declarationText : String := "<?xml version='1.0' encoding='UTF-8'?>\n"

lemma declaration_append (rest : List Char) :
    declaration? (declarationText.toList ++ rest) = some (some "UTF-8".toList, '\n' :: rest) := by
  rfl

/-- The octets of a document say that they are UTF-8, and are read so. -/
lemma decode_document (text : String) :
    decode? (declarationText ++ text).toUTF8.toList = some (declarationText ++ text).toList := by
  have hread := Text.ofUtf8_toUTF8 (declarationText ++ text)
  have hoctets : (declarationText ++ text).toUTF8.toList =
      declarationText.toList.map (fun c => UInt8.ofNat c.toNat) ++
        text.toList.flatMap String.utf8EncodeChar := by
    rw [Text.toList_toUTF8, String.toList_append, List.flatMap_append]
    rfl
  have hchars : declarationText.toList.map (fun c => Char.ofNat (UInt8.ofNat c.toNat).toNat) =
      declarationText.toList := by decide
  have hname : Encoding.ofName? "UTF-8".toList = some .utf8 := by decide
  generalize (declarationText ++ text).toUTF8.toList = octets at hread hoctets ⊢
  have hmark : marked? octets = none := by
    rw [hoctets]
    rfl
  have hdeclared : declaration? (octets.map fun b => Char.ofNat b.toNat) =
      some (some "UTF-8".toList, '\n' ::
      (text.toList.flatMap String.utf8EncodeChar).map fun b => Char.ofNat b.toNat) := by
    rw [hoctets, List.map_append, List.map_map]
    exact hchars ▸ declaration_append _
  rw [decode?, hmark, hdeclared]
  simp only [hname, Option.bind_some, decodeAs?, hread]
  rfl

/-! ## Characters -/

/-- A text that a document can hold, and in which lines end with line feeds. -/
def Clean (cs : List Char) : Prop := ∀ c ∈ cs, isXmlChar c = true ∧ c ≠ '\r'

@[simp] lemma clean_append {cs ds : List Char} : Clean (cs ++ ds) ↔ Clean cs ∧ Clean ds :=
  List.forall_mem_append

@[simp] lemma clean_cons {c : Char} {cs : List Char} : Clean (c :: cs) ↔
    (isXmlChar c = true ∧ c ≠ '\r') ∧ Clean cs := List.forall_mem_cons

@[simp] lemma clean_nil : Clean [] := fun _ h => absurd h List.not_mem_nil

lemma isXmlChar_of_isWordChar {c : Char} (h : isWordChar c = true) : isXmlChar c = true := by
  by_cases hmark : c ∈ ['_', '-', '.', ':']
  · have hmarks : ∀ d ∈ ['_', '-', '.', ':'], isXmlChar d = true := List.all_eq_true.mp (by decide)
    exact hmarks c hmark
  · simp only [List.mem_cons, List.not_mem_nil, or_false, not_or] at hmark
    have hval : c.val.toNat = c.toNat := rfl
    have hletter : c.isAlpha = (decide (c.val ≥ 'A'.val ∧ c.val ≤ 'Z'.val) ||
        (decide (c.val ≥ 'a'.val) && decide (c.val ≤ 'z'.val))) := rfl
    simp only [isWordChar, isNameChar, isNameStart, hletter, Char.isDigit,
      Bool.or_eq_true, Bool.and_eq_true, beq_iff_eq, bne_iff_ne, decide_eq_true_eq,
      UInt32.le_iff_toNat_le, ge_iff_le,
      Char.reduceVal, UInt32.reduceToNat, hval, hmark, or_false] at h
    simp only [isXmlChar, Bool.or_eq_true, Bool.and_eq_true, beq_iff_eq, decide_eq_true_eq]
    omega

lemma clean_wordChars {cs : List Char} (h : ∀ c ∈ cs, isWordChar c = true) : Clean cs := by
  intro c hc
  refine ⟨isXmlChar_of_isWordChar (h c hc), ?_⟩
  rintro rfl
  exact absurd (h _ hc) (by decide)

lemma clean_word {word : List Char} (h : isWord word = true) : Clean word := by
  apply clean_wordChars
  obtain ⟨c, more, rfl, hc⟩ := exists_of_isWord h
  refine List.forall_mem_cons.mpr ⟨by simp [isWordChar, isNameChar, hc], ?_⟩
  exact List.all_eq_true.mp (Bool.and_eq_true_iff.mp h).2

lemma Worded.clean {chars : String} (h : Worded chars) : Clean chars.toList := clean_wordChars h

lemma clean_newLine (level : Nat) : Clean (newLine (some level)) := by
  intro c hc
  obtain rfl | hc := List.mem_cons.mp hc
  · decide
  · rw [List.eq_of_mem_replicate hc]
    decide

lemma clean_attributes {pairs : List (String × String)} (hnamed : Named pairs)
    (hfit : ∀ a ∈ pairs, Fit a.2.toList) : Clean (writeAttributes pairs) := by
  induction pairs with
  | nil => exact clean_nil
  | cons a pairs ih =>
    obtain ⟨hname, hnamed⟩ := List.forall_mem_cons.mp hnamed
    obtain ⟨hvalue, hfit⟩ := List.forall_mem_cons.mp hfit
    have hescaped : Clean (a.2.toList.flatMap attributeChar) := fun c hc => by
      refine ⟨fit_attributeChars hvalue c hc, ?_⟩
      rintro rfl
      exact (not_mem_attributeChars a.2.toList).2.2 hc
    have htext : writeAttributes (a :: pairs) = ' ' :: (a.1.toList ++ '=' :: '"' ::
        (a.2.toList.flatMap attributeChar ++ '"' :: writeAttributes pairs)) := by
      simp [writeAttributes, writeAttribute]
    have hmarks : ∀ c ∈ [' ', '=', '"'], isXmlChar c = true ∧ c ≠ '\r' := by simp [isXmlChar]
    simp only [List.forall_mem_cons] at hmarks
    simp [htext, clean_word hname, hescaped, hmarks, ih hnamed hfit]

/-- The text of a tree is clean if its names and values are. -/
theorem clean_write {n : Node} (h : Tagged n) : ∀ level, Clean (n.write (some level)) := by
  have hmarks : ∀ c ∈ ['<', '>', '/'], isXmlChar c = true ∧ c ≠ '\r' := by simp [isXmlChar]
  simp only [List.forall_mem_cons] at hmarks
  induction h with
  | @element tag bindings attributes content name named fit below ih =>
    intro level
    have hfront := clean_attributes named fit
    have hname := clean_word name
    by_cases hne : content = []
    · subst hne
      simp [write_empty, hmarks, hfront, hname]
    · have hinner : ∀ ns ⊆ content, Clean (Node.writeAll (some (level + 1)) ns) := by
        intro ns
        induction ns with
        | nil => exact fun _ => clean_nil
        | cons n ns ihns =>
          intro hsub
          obtain ⟨hn, hns⟩ := List.cons_subset.mp hsub
          simp [Node.writeAll, clean_newLine, ih n hn, ihns hns]
      simp [write_full tag bindings attributes level hne (Tagged.no_text below), hmarks, hfront,
        hname, clean_newLine, hinner content (List.Subset.refl _)]
  | @leaf tag bindings attributes chars name named fit worded =>
    intro level
    simp [write_leaf tag bindings attributes level worded, hmarks, clean_attributes named fit,
      clean_word name, worded.clean]

lemma plainLines_eq {cs : List Char} (h : Clean cs) : Text.plainLines cs = cs := by
  induction cs with
  | nil => rfl
  | cons c cs ih =>
    obtain ⟨⟨-, hc⟩, hcs⟩ := clean_cons.mp h
    rw [Text.plainLines, ih hcs]
    · exact fun _ hcr => absurd hcr hc
    · exact hc

/-! ## Documents -/

/-- There is no document type in front of a tag. -/
lemma prolog_tag {c : Char} (hc : isNameStart c = true) (rest : List Char) :
    prolog? ('\n' :: '<' :: c :: rest) = some (.none, '<' :: c :: rest) := by
  have hmark : c ≠ '!' := ne_of_isNameStart hc (by decide)
  have hquery : c ≠ '?' := ne_of_isNameStart hc (by decide)
  have hskip : skipSpace ('\n' :: '<' :: c :: rest) = '<' :: c :: rest := rfl
  have hcomment : afterWord? "<!--" ('<' :: c :: rest) = none := by
    simp [afterWord?, after?, Ne.symm hmark]
  have hinstruction : afterWord? "<?" ('<' :: c :: rest) = none := by
    simp [afterWord?, after?, Ne.symm hquery]
  have htype : afterWord? "<!DOCTYPE" ('<' :: c :: rest) = none := by
    simp [afterWord?, after?, Ne.symm hmark]
  have hmisc : skipMisc? ('\n' :: '<' :: c :: rest).length ('\n' :: '<' :: c :: rest) =
      some ('<' :: c :: rest) := by
    rw [List.length_cons, skipMisc?]
    simp only [hskip, hcomment, hinstruction]
  rw [prolog?, hmisc]
  simp only [Option.bind_eq_bind, Option.bind_some, htype]

/-- Reading the document of a tree is assembling the pieces of the tree. -/
theorem ofText_document {n : Node} (h : Tagged n) :
    ofText? n.document = assemble? .none [] none (n.pieces 0 ++ [blankPiece 0]) := by
  obtain ⟨c, cs, hwrite, hc⟩ := h.write_eq (some 0)
  have hdocument : n.document = declarationText ++ n.pretty := rfl
  have hpretty : n.pretty.toList = n.write (some 0) ++ ['\n'] := by simp [Node.pretty]
  have hclean : Clean (declarationText.toList ++ (n.write (some 0) ++ ['\n'])) := by
    have hdeclaration : Clean declarationText.toList := by simp [declarationText, isXmlChar]
    simp only [clean_append]
    exact ⟨hdeclaration, clean_write h 0, clean_newLine 0⟩
  have hall : (declarationText.toList ++ (n.write (some 0) ++ ['\n'])).all isXmlChar = true :=
    List.all_eq_true.mpr fun c hc => (hclean c hc).1
  have hafter : afterDeclaration? (declarationText.toList ++ (n.write (some 0) ++ ['\n'])) =
      some ('\n' :: (n.write (some 0) ++ ['\n'])) := by
    rw [afterDeclaration?, declaration_append]
    rfl
  have hend : Scans ['\n'] [blankPiece 0] := scans_newLine 0 (by simp) (by simp) .nil
  have hpieces := (scansTree_of_tagged h 0 hend).pieces_eq
  rw [ofText?, ofOctets?, hdocument, decode_document, String.toList_append, hpretty,
    Option.bind_some, ofChars?, plainLines_eq hclean, hall, hafter]
  rw [hwrite] at hpieces ⊢
  simp only [Option.bind_eq_bind, Option.bind_some, List.cons_append, prolog_tag hc] at hpieces ⊢
  simp [DocumentType.none, hpieces]

/-- A tree all of whose tags can be written and are understood is read back from its document. -/
theorem ofText_document_of_readable {n : Node} {height : Nat} (h : Tagged n)
    (hn : Readable height [] n) (hheight : height ≤ depthLimit) : ofText? n.document = some n := by
  rw [ofText_document h, assemble_of_readable hn hheight]

/-- A tree whose root is not understood cannot be read back. -/
theorem ofText_document_eq_none {tag : QName} {bindings : List (String × String)}
    {attributes : List Attribute} {content : List Node}
    (h : Tagged (.element tag bindings attributes content))
    (hopens : openElement? .none [] tag.written.toList
    (readAttributes (tagAttributes bindings attributes)) = none) :
    ofText? (Node.element tag bindings attributes content).document = none := by
  have hscope : scopeOf [] = [] := rfl
  rw [ofText_document h, Node.pieces, List.cons_append,
    assemble_opening (by decide), hscope, hopens]
  rfl

end SchemaLoom.Xml
