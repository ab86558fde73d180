import SchemaLoom.Proofs.Xml.Dtd
import SchemaLoom.Proofs.Xml.Tree
import SchemaLoom.Xml.Reader

/-! A document that is read has attributes of legal characters only, whatever entities and numbers
the values are spelled with. -/
namespace SchemaLoom.Xml

/-- The parts of a piece can stand in a document. -/
def RawPiece.Fit : RawPiece → Prop
  | .opening _ attributes => ∀ a ∈ attributes, ∀ p ∈ a.2, p.Fit
  | .text parts => ∀ p ∈ parts, p.Fit
  | _ => True

/-- The values in a piece can stand in a document. -/
def Piece.Fit : Piece → Prop
  | .opening _ attributes => ∀ a ∈ attributes, Xml.Fit a.2
  | _ => True

section
variable {cs : List Char}

lemma fit_tagEnd (fuel : Nat) (h : Fit cs) :
    Yields (tagEnd? fuel cs) fun r => (∀ a ∈ r.1, ∀ p ∈ a.2, p.Fit) ∧ Fit r.2.2 := by
  induction fuel generalizing cs with
  | zero => exact .none
  | succ fuel ih =>
    have hs := h.skipSpace
    unfold tagEnd?
    split
    · rename_i rest hrest
      rw [hrest] at hs
      exact .some ⟨by simp, hs.tail⟩
    · rename_i rest hrest
      rw [hrest] at hs
      exact .some ⟨by simp, hs.tail.tail⟩
    · refine .bind (fit_skipSpace1 h) fun rest h => ?_
      refine .bind (fit_name h) fun ⟨name, rest⟩ h => ?_
      refine .bind (fit_skipEquals h.2) fun rest h => ?_
      refine .bind (fit_quotedText h) fun ⟨value, rest⟩ h => ?_
      dsimp only
      split
      · exact .none
      · refine .bind (fit_parts h.1) fun parts hparts => ?_
        refine .bind (ih h.2) fun ⟨others, empty, rest⟩ h => ?_
        exact .some ⟨List.forall_mem_cons.mpr ⟨hparts, h.1⟩, h.2⟩

lemma fit_nextPiece (h : Fit cs) :
    Yields (nextPiece? cs) fun r => (∀ p ∈ r.1, p.Fit) ∧ Fit r.2 := by
  unfold nextPiece?
  split
  · refine .bind (fit_name h.tail.tail) fun ⟨name, rest⟩ h => ?_
    exact .bind (fit_closes h.2) fun rest h => .some ⟨by simp [RawPiece.Fit], h⟩
  · exact .bind (fit_instruction h.tail.tail) fun ⟨target, rest⟩ h =>
      .some ⟨by simp [RawPiece.Fit], h.2⟩
  · exact .bind (fit_skipComment h.tail.tail.tail.tail) fun rest h => .some ⟨by simp, h⟩
  · refine .bind (fit_afterWord _ h.tail.tail) fun rest h => ?_
    exact .bind (fit_upTo _ h) fun ⟨chars, rest⟩ h => .some ⟨by simp [RawPiece.Fit], h.2⟩
  · refine .bind (fit_name h.tail) fun ⟨name, rest⟩ h => ?_
    refine .bind (fit_tagEnd _ h.2) fun ⟨attributes, empty, rest⟩ h => ?_
    refine .some ⟨?_, h.2⟩
    cases empty with
    | false => simpa [RawPiece.Fit] using h.1
    | true => simpa [RawPiece.Fit] using h.1
  · dsimp only
    split
    · exact .none
    · exact .bind (fit_parts (h.takeWhile _)) fun parts hparts =>
        .some ⟨by simpa [RawPiece.Fit] using hparts, h.dropWhile _⟩

lemma fit_piecesWithin (fuel : Nat) (h : Fit cs) :
    Yields (piecesWithin? fuel cs) fun ps => ∀ p ∈ ps, p.Fit := by
  induction fuel generalizing cs with
  | zero =>
    cases cs with
    | nil => exact .some (by simp)
    | cons c cs => exact .none
  | succ fuel ih =>
    cases cs with
    | nil => exact .some (by simp)
    | cons c cs =>
      unfold piecesWithin?
      refine .bind (fit_nextPiece h) fun ⟨here, rest⟩ hr => ?_
      refine .bind (ih hr.2) fun others ho => .some ?_
      intro p hp
      obtain hp | hp := List.mem_append.mp hp
      · exact hr.1 p hp
      · exact ho p hp

lemma fit_rawPieces (h : Fit cs) : Yields (rawPieces? cs) fun ps => ∀ p ∈ ps, p.Fit :=
  fit_piecesWithin cs.length h

lemma forall_mem_flatten {α : Type} {P : α → Prop} {xss : List (List α)}
    (h : ∀ xs ∈ xss, ∀ x ∈ xs, P x) : ∀ x ∈ xss.flatten, P x := by
  intro x hx
  obtain ⟨xs, hxs, hx⟩ := List.mem_flatten.mp hx
  exact h xs hxs x hx

lemma fit_expandPiece {es : Entities} (hes : FitValues es.values) (depth : Nat) {piece : RawPiece}
    (h : piece.Fit) : Yields (expandPiece? es depth piece) fun ps => ∀ p ∈ ps, p.Fit := by
  induction depth using Nat.strongRecOn generalizing piece with
  | ind depth ih =>
    cases piece with
    | opening name attributes =>
      unfold expandPiece?
      refine .bind (P := fun attributes => ∀ a ∈ attributes, Fit a.2) (.mapM fun a ha => ?_)
        fun attributes h => .some (by simpa [Piece.Fit] using h)
      exact .map (fit_valueOf hes _ (h a ha))
    | closing name =>
      unfold expandPiece?
      exact .some (by simp [Piece.Fit])
    | verbatim chars =>
      unfold expandPiece?
      exact .some (by simp [Piece.Fit])
    | instruction target =>
      unfold expandPiece?
      exact .some (by simp [Piece.Fit])
    | text parts =>
      unfold expandPiece?
      refine .bind (P := fun pss => ∀ ps ∈ pss, ∀ p ∈ ps, p.Fit) (.mapM fun part hpart => ?_)
        fun pss h => .some (forall_mem_flatten h)
      cases part with
      | plain c => exact .some (by simp [Piece.Fit])
      | numbered c => exact .some (by simp [Piece.Fit])
      | given name c => exact .some (by simp [Piece.Fit])
      | entity name =>
        cases depth with
        | zero => exact .none
        | succ depth =>
          refine .bind (fit_replacement hes name) fun text htext => ?_
          refine .bind (fit_rawPieces htext) fun raw hraw => ?_
          refine .bind (.mapM fun p hp => ih depth (by omega) (hraw p hp)) fun inner hinner => ?_
          dsimp only
          split
          · exact .some (List.forall_mem_cons.mpr ⟨trivial, forall_mem_flatten hinner⟩)
          · exact .none

lemma fit_joinText {ps : List Piece} (h : ∀ p ∈ ps, p.Fit) : ∀ p ∈ joinText ps, p.Fit := by
  induction ps with
  | nil => exact h
  | cons p ps ih =>
    obtain ⟨hp, hps⟩ := List.forall_mem_cons.mp h
    have hrest := ih hps
    unfold joinText
    split
    · rename_i heq
      cases heq
    · rename_i heq
      cases heq
      split
      · rename_i heq
        rw [heq] at hrest
        exact List.forall_mem_cons.mpr ⟨trivial, (List.forall_mem_cons.mp hrest).2⟩
      · exact List.forall_mem_cons.mpr ⟨trivial, hrest⟩
    · rename_i heq
      cases heq
      exact List.forall_mem_cons.mpr ⟨hp, hrest⟩

lemma fit_pieces {es : Entities} (hes : FitValues es.values) (h : Fit cs) :
    Yields (pieces? es cs) fun ps => ∀ p ∈ ps, p.Fit := by
  unfold pieces?
  refine .bind (fit_rawPieces h) fun raw hraw => ?_
  refine .bind (.mapM fun p hp => fit_expandPiece hes _ (hraw p hp)) fun pieces hp => ?_
  exact .some (fit_joinText (forall_mem_flatten hp))

end

/-! ## From pieces to a tree -/

lemma isLegalText_iff {s : String} : isLegalText s = true ↔ Fit s.toList := List.all_eq_true

lemma mem_intersperse {α : Type} {sep x : α} {xs : List α} (h : x ∈ xs.intersperse sep) :
    x = sep ∨ x ∈ xs := by
  fun_induction List.intersperse with
  | case1 => cases h
  | case2 y => exact .inr h
  | case3 y z zs ih =>
    obtain rfl | h := List.mem_cons.mp h
    · exact .inr (by simp)
    · obtain rfl | h := List.mem_cons.mp h
      · exact .inl rfl
      · exact (ih h).imp_right fun h => List.mem_cons_of_mem y h

lemma fit_splitOn {cs : List Char} (h : Fit cs) : ∀ word ∈ cs.splitOn ' ', Fit word := by
  induction cs with
  | nil => simp [fit_nil]
  | cons c cs ih =>
    obtain ⟨hc, hcs⟩ := fit_cons.mp h
    have hwords := ih hcs
    rw [List.splitOn_cons_eq_if_modifyHead]
    split
    · exact List.forall_mem_cons.mpr ⟨fit_nil, hwords⟩
    · obtain ⟨word, words, hsplit⟩ := List.exists_cons_of_ne_nil (List.splitOn_ne_nil ' ' cs)
      rw [hsplit, List.forall_mem_cons] at hwords
      rw [hsplit, List.modifyHead_cons, List.forall_mem_cons]
      exact ⟨fit_cons.mpr ⟨hc, hwords.1⟩, hwords.2⟩

lemma fit_asWords {cs : List Char} (h : Fit cs) : Fit (asWords cs) := by
  refine fit_flatten fun word hword => ?_
  obtain rfl | hword := mem_intersperse hword
  · exact fit_cons.mpr ⟨by decide, fit_nil⟩
  · exact fit_splitOn h word (List.mem_filter.mp hword).1

/-- An open element with attributes and content that can stand in a document. -/
structure OpenElement.Fit (e : OpenElement) : Prop where
  attributes : ∀ a ∈ e.attributes, isLegalText a.value = true
  content : ∀ n ∈ e.content, n.IsLegal

lemma isLegal_closed {e : OpenElement} (h : e.Fit) : e.closed.IsLegal := by
  rw [Node.isLegal_iff]
  exact ⟨h.attributes, fun k hk => h.content k (List.mem_reverse.mp hk)⟩

/-- An element that has just been opened, with attributes that can stand in a document. -/
structure OpenElement.Fresh (e : OpenElement) : Prop where
  attributes : ∀ a ∈ e.attributes, isLegalText a.value = true
  content : e.content = []

lemma OpenElement.Fresh.fit {e : OpenElement} (h : e.Fresh) : e.Fit :=
  ⟨h.attributes, by simp [h.content]⟩

lemma fit_attributeIn {scope : Scope} {a : RawAttribute} (h : Fit a.2.2.toList) :
    Yields (attributeIn? scope a) fun b => isLegalText b.value = true := by
  have hlegal := isLegalText_iff.mpr h
  unfold attributeIn?
  dsimp only
  split
  · exact .some hlegal
  · intro b hb
    obtain ⟨uri, -, hb⟩ := Option.bind_eq_some_iff.mp hb
    split at hb
    · cases hb
    · cases hb
      exact hlegal

lemma fresh_openElement {dt : DocumentType} {scope : Scope} {written : List Char}
    {attributes : List (List Char × List Char)} (h : ∀ a ∈ attributes, Fit a.2) :
    Yields (openElement? dt scope written attributes) OpenElement.Fresh := by
  unfold openElement?
  refine .bind (P := fun raw => ∀ a ∈ raw, Fit a.2.2.toList) (.mapM fun a ha => ?_)
    fun raw hraw => ?_
  · obtain ⟨name, value⟩ := a
    refine .bind (P := fun _ => True) (fun _ _ => trivial) fun ⟨qualifier, part⟩ _ => .some ?_
    dsimp only
    rw [String.toList_ofList]
    split
    · exact fit_asWords (h _ ha)
    · exact h _ ha
  extract_lets bound
  have hbound : Yields (bound ()) OpenElement.Fresh := by
    refine .bind (P := fun _ => True) (fun _ _ => trivial) fun found _ => ?_
    extract_lets bindings inner others
    have hothers : ∀ a ∈ others, Fit a.2.2.toList := by
      intro a ha
      obtain ⟨⟨b, binding⟩, hb, hab⟩ := List.mem_filterMap.mp ha
      dsimp only at hab
      split at hab
      · cases hab
        exact hraw _ (List.of_mem_zip hb).1
      · cases hab
    refine .bind (.mapM fun a ha => fit_attributeIn (hothers a ha)) fun resolved hresolved => ?_
    have hopen (tag : QName) : OpenElement.Fresh ⟨written, tag, bindings, resolved, inner, []⟩ :=
      ⟨hresolved, rfl⟩
    extract_lets named
    have hnamed : Yields (named ()) OpenElement.Fresh := by
      refine .bind (P := fun _ => True) (fun _ _ => trivial) fun ⟨qualifier, part⟩ _ => ?_
      dsimp only
      split
      · split
        · exact .none
        · exact .some (hopen _)
      · split
        · exact .none
        · exact .some (hopen _)
      · split
        · exact .none
        · exact .some (hopen _)
      · exact .none
    split
    · exact .none
    · exact hnamed
  split
  · exact .none
  · exact hbound

/-- An open element with one more node at the end of its content. -/
def OpenElement.adding (e : OpenElement) (n : Node) : OpenElement :=
  { e with content := n :: e.content }

/-- What a piece does to the elements that are open and to the root that is closed. -/
inductive Takes (dt : DocumentType) :
    List OpenElement → Option Node → Piece → List OpenElement → Option Node → Prop
  | opening {opened : List OpenElement} {root : Option Node} {scope : Scope} {name : List Char}
    {attributes : List (List Char × List Char)} {e : OpenElement}
    (hdepth : opened.length < depthLimit) (he : openElement? dt scope name attributes = some e) :
    Takes dt opened root (.opening name attributes) (e :: opened) root
  | closingRoot {e : OpenElement} {root : Option Node} {name : List Char} :
    Takes dt [e] root (.closing name) [] (some e.closed)
  | closing {e parent : OpenElement} {others : List OpenElement} {root : Option Node}
    {name : List Char} :
    Takes dt (e :: parent :: others) root (.closing name) (parent.adding e.closed :: others) root
  | adding {e : OpenElement} {outer : List OpenElement} {root : Option Node} {p : Piece} {n : Node}
    (hn : n.tag? = none) : Takes dt (e :: outer) root p (e.adding n :: outer) root
  | passing {opened : List OpenElement} {root : Option Node} {p : Piece} :
    Takes dt opened root p opened root

section
variable {dt : DocumentType} {opened : List OpenElement} {root : Option Node} {document : Node}

/-- Pieces are assembled one at a time. -/
lemma exists_takes {p : Piece} {rest : List Piece}
    (h : assemble? dt opened root (p :: rest) = some document) :
    ∃ opened' root', Takes dt opened root p opened' root' ∧
      assemble? dt opened' root' rest = some document := by
  cases p with
  | opening name attributes =>
    rw [assemble?] at h
    split at h
    · cases h
    · rename_i hdepth
      have hshort : opened.length < depthLimit := by
        simp only [Bool.or_eq_true, decide_eq_true_eq, not_or] at hdepth
        omega
      dsimp only at h
      split at h
      · rename_i e he
        exact ⟨_, _, .opening hshort he, h⟩
      · cases h
  | closing name =>
    cases opened with
    | nil =>
      rw [assemble?] at h
      cases h
    | cons e outer =>
      cases outer with
      | nil =>
        rw [assemble?] at h
        split at h
        · cases h
        · exact ⟨_, _, .closingRoot, h⟩
      | cons parent others =>
        rw [assemble?] at h
        split at h
        · cases h
        · exact ⟨_, _, .closing, h⟩
  | text chars literal =>
    cases opened with
    | nil =>
      rw [assemble?] at h
      split at h
      · exact ⟨_, _, .passing, h⟩
      · cases h
    | cons e outer =>
      rw [assemble?] at h
      split at h
      · exact ⟨_, _, .passing, h⟩
      · exact ⟨_, _, .adding rfl, h⟩
  | instruction target =>
    cases opened with
    | nil =>
      rw [assemble?] at h
      exact ⟨_, _, .passing, h⟩
    | cons e outer =>
      rw [assemble?] at h
      exact ⟨_, _, .adding rfl, h⟩

/-- What every piece keeps of the open elements and the root holds of a document that is
assembled. -/
theorem assemble_keeps {I : List OpenElement → Option Node → Prop} {P : Piece → Prop}
    (hstep : ∀ {opened root p opened' root'}, P p → I opened root →
      Takes dt opened root p opened' root' → I opened' root') {pieces : List Piece}
    (hp : ∀ p ∈ pieces, P p) (hstart : I opened root)
    (h : assemble? dt opened root pieces = some document) : I [] (some document) := by
  induction pieces generalizing opened root with
  | nil =>
    cases opened with
    | nil =>
      rw [assemble?] at h
      rwa [h] at hstart
    | cons e outer => cases h
  | cons p rest ih =>
    obtain ⟨hpiece, hrest⟩ := List.forall_mem_cons.mp hp
    obtain ⟨opened', root', htakes, h⟩ := exists_takes h
    exact ih hrest (hstep hpiece hstart htakes) h

end

lemma OpenElement.Fit.adding {e : OpenElement} (h : e.Fit) {n : Node} (hn : n.IsLegal) :
    (e.adding n).Fit :=
  ⟨h.attributes, List.forall_mem_cons.mpr ⟨hn, h.content⟩⟩

lemma isLegal_of_tag_eq_none {n : Node} (h : n.tag? = none) : n.IsLegal := by
  cases n with
  | element tag bindings attributes content => cases h
  | _ => exact Node.isLegal_iff.mpr ⟨by simp [Node.attributes], by simp [Node.content]⟩

/-- Open elements and the root that is closed stay legal. -/
lemma isLegal_takes {dt : DocumentType} {opened opened' : List OpenElement}
    {root root' : Option Node} {p : Piece} (hp : p.Fit)
    (h : (∀ e ∈ opened, e.Fit) ∧ Yields root Node.IsLegal)
    (htakes : Takes dt opened root p opened' root') :
    (∀ e ∈ opened', e.Fit) ∧ Yields root' Node.IsLegal := by
  obtain ⟨hopened, hroot⟩ := h
  cases htakes with
  | opening _ he =>
    exact ⟨List.forall_mem_cons.mpr ⟨(fresh_openElement hp _ he).fit, hopened⟩, hroot⟩
  | closingRoot => exact ⟨by simp, .some (isLegal_closed (hopened _ (by simp)))⟩
  | closing =>
    obtain ⟨he, hopened⟩ := List.forall_mem_cons.mp hopened
    obtain ⟨hparent, hothers⟩ := List.forall_mem_cons.mp hopened
    exact ⟨List.forall_mem_cons.mpr ⟨hparent.adding (isLegal_closed he), hothers⟩, hroot⟩
  | adding hn =>
    obtain ⟨he, houter⟩ := List.forall_mem_cons.mp hopened
    exact ⟨List.forall_mem_cons.mpr ⟨he.adding (isLegal_of_tag_eq_none hn), houter⟩, hroot⟩
  | passing => exact ⟨hopened, hroot⟩

lemma fit_plainLines {cs : List Char} (h : Fit cs) : Fit (Text.plainLines cs) := by
  fun_induction Text.plainLines with
  | case1 rest ih => exact fit_cons.mpr ⟨by decide, ih h.tail.tail⟩
  | case2 rest _ ih => exact fit_cons.mpr ⟨by decide, ih h.tail⟩
  | case3 c rest _ _ ih => exact fit_cons.mpr ⟨(fit_cons.mp h).1, ih h.tail⟩
  | case4 => exact h

/-- A document that is read is assembled from pieces that can stand in it. -/
lemma exists_pieces_of_ofOctets {octets : List UInt8} {document : Node}
    (h : ofOctets? octets = some document) : ∃ dt pieces, (∀ p ∈ pieces, Piece.Fit p) ∧
      assemble? dt [] none pieces = some document := by
  obtain ⟨cs, -, h⟩ := Option.bind_eq_some_iff.mp h
  unfold ofChars? at h
  split at h
  · cases h
  · rename_i hall
    have hfit : Fit cs := by
      intro c hc
      simp only [Bool.not_eq_true', Bool.not_eq_false, List.all_eq_true] at hall
      exact hall c hc
    obtain ⟨rest, hrest, h⟩ := Option.bind_eq_some_iff.mp h
    obtain ⟨⟨dt, inner⟩, hprolog, h⟩ := Option.bind_eq_some_iff.mp h
    obtain ⟨pieces, hpieces, h⟩ := Option.bind_eq_some_iff.mp h
    have hinner := fit_prolog (fit_afterDeclaration (fit_plainLines hfit) rest hrest) _ hprolog
    exact ⟨dt, pieces, fit_pieces hinner.1 hinner.2 pieces hpieces, h⟩

/-- Documents that are read are legal. -/
theorem isLegal_ofOctets {octets : List UInt8} {document : Node}
    (h : ofOctets? octets = some document) : document.IsLegal := by
  obtain ⟨dt, pieces, hpieces, h⟩ := exists_pieces_of_ofOctets h
  exact (assemble_keeps isLegal_takes hpieces ⟨by simp, .none⟩ h).2 document rfl

end SchemaLoom.Xml
