import SchemaLoom.Proofs.Xml.Legal

/-! What a document type declares can stand in a document, and so can what is left of a text behind
each of its parts. -/
namespace SchemaLoom.Xml

section
variable {cs : List Char}

lemma fit_name (h : Fit cs) : Yields (name? cs) FitBoth := by
  unfold name?
  split
  · rename_i c rest
    dsimp only
    split
    · exact .some ⟨fit_cons.mpr ⟨(fit_cons.mp h).1, h.tail.takeWhile _⟩, h.tail.dropWhile _⟩
    · exact .none
  · exact .none

lemma fit_plainName (h : Fit cs) : Yields (plainName? cs) FitBoth := .filter (fit_name h)

lemma fit_upTo (stop : List Char) (h : Fit cs) : Yields (upTo? stop cs) FitBoth := by
  induction cs with
  | nil =>
    unfold upTo?
    split
    · exact .some ⟨h, h⟩
    · exact .none
  | cons c cs ih =>
    unfold upTo?
    split
    · rename_i rest hrest
      exact .some ⟨fit_nil, fit_after h rest hrest⟩
    · refine .map ((ih h.tail).mono fun r hr => ?_)
      exact ⟨fit_cons.mpr ⟨(fit_cons.mp h).1, hr.1⟩, hr.2⟩

lemma fit_skipComment (h : Fit cs) : Yields (skipComment? cs) Fit := by
  unfold skipComment?
  refine .bind (fit_upTo _ h) fun ⟨front, rest⟩ h => ?_
  dsimp only
  split
  · exact .some h.2.tail
  · exact .none

lemma fit_instruction (h : Fit cs) : Yields (instruction? cs) FitBoth := by
  unfold instruction?
  refine .bind (fit_plainName h) fun ⟨target, rest⟩ h => ?_
  dsimp only
  split
  · exact .none
  · split
    · rename_i after hafter
      exact .some ⟨h.1, fit_afterWord _ h.2 after hafter⟩
    · refine .bind (fit_skipSpace1 h.2) fun rest hrest => ?_
      exact .bind (fit_upTo _ hrest) fun ⟨_, rest⟩ hrest => .some ⟨h.1, hrest.2⟩

lemma fit_skipMisc (fuel : Nat) (h : Fit cs) : Yields (skipMisc? fuel cs) Fit := by
  induction fuel generalizing cs with
  | zero => exact .some h
  | succ fuel ih =>
    have hs := h.skipSpace
    unfold skipMisc?
    dsimp only
    split
    · rename_i rest hrest
      exact .bind (fit_skipComment (fit_afterWord _ hs rest hrest)) fun rest h => ih h
    · split
      · rename_i rest hrest
        exact .bind (fit_instruction (fit_afterWord _ hs rest hrest)) fun ⟨_, rest⟩ h => ih h.2
      · exact .some hs

lemma fit_spacedQuote (h : Fit cs) : Yields ((skipSpace1? cs).bind quotedText?) FitBoth :=
  .bind (fit_skipSpace1 h) fun _ h => fit_quotedText h

lemma fit_skipExternal (publicAlone : Bool) (h : Fit cs) :
    Yields (skipExternal? publicAlone cs) Fit := by
  unfold skipExternal?
  split
  · rename_i rest hrest
    refine .bind (fit_skipSpace1 (fit_afterWord _ h rest hrest)) fun rest h => ?_
    exact .bind (fit_quotedText h) fun ⟨_, rest⟩ h => .some h.2
  · refine .bind (fit_afterWord _ h) fun rest h => ?_
    refine .bind (fit_skipSpace1 h) fun rest h => ?_
    refine .bind (fit_quotedText h) fun ⟨identifier, rest⟩ h => ?_
    dsimp only
    split
    · exact .none
    · split
      · rename_i text rest' hrest
        exact .some (fit_spacedQuote h.2 _ hrest).2
      · split
        · exact .some h.2
        · exact .none

lemma fit_replacementOf (h : Fit cs) : Yields (replacementOf? cs) Fit := by
  have hwritten (name : String) (hn : Fit name.toList) : Fit ('&' :: name.toList ++ [';']) := by
    intro c hc
    simp only [List.cons_append, List.mem_cons, List.mem_append, List.not_mem_nil, or_false] at hc
    obtain rfl | hc | rfl := hc
    · decide
    · exact hn c hc
    · decide
  unfold replacementOf?
  dsimp only
  split
  · exact .none
  · refine .bind (fit_parts h) fun parts hparts => .some ?_
    intro c hc
    obtain ⟨p, hp, hc⟩ := List.mem_flatMap.mp hc
    have hfit := hparts p hp
    cases p with
    | plain d => exact List.mem_singleton.mp hc ▸ hfit
    | numbered d => exact List.mem_singleton.mp hc ▸ hfit
    | given name d => exact hwritten name hfit.1 c hc
    | entity name => exact hwritten name hfit c hc

lemma fit_closes (h : Fit cs) : Yields (closes? cs) Fit := by
  unfold closes?
  split
  · rename_i rest hrest
    have hs := h.skipSpace
    rw [hrest] at hs
    exact .some hs.tail
  · exact .none

lemma fit_skipOutside (general : Bool) (h : Fit cs) : Yields (skipOutside? general cs) Fit := by
  unfold skipOutside?
  refine .bind (fit_skipExternal false h) fun rest h => ?_
  have hdata : Yields ((skipSpace1? rest).bind (afterWord? "NDATA")) Fit :=
    .bind (fit_skipSpace1 h) fun _ h => fit_afterWord _ h
  split
  · rename_i rest' hrest
    dsimp only
    split
    · exact .none
    · refine .bind (fit_skipSpace1 (hdata _ hrest)) fun rest h => ?_
      exact .bind (fit_name h) fun ⟨_, rest⟩ h => .some h.2
  · exact .some h

end

/-- Declarations stand for texts that can stand in a document. -/
structure Declarations.Fit (ds : Declarations) : Prop where
  general : FitValues ds.general
  parameter : FitValues ds.parameter

lemma FitValues.snoc {values : List (String × EntityValue)} (h : FitValues values) {name : String}
    {value : EntityValue} (hv : ∀ text, value = .replacement text → Fit text) :
    FitValues (values ++ [(name, value)]) := by
  intro n text hmem
  obtain hmem | hmem := List.mem_append.mp hmem
  · exact h n text hmem
  · simp only [List.mem_singleton, Prod.mk.injEq] at hmem
    exact hv text hmem.2.symm

lemma FitValues.cons {values : List (String × EntityValue)} (h : FitValues values) {name : String}
    {text : List Char} (htext : Fit text) : FitValues ((name, .replacement text) :: values) := by
  intro n t hmem
  obtain heq | hmem := List.mem_cons.mp hmem
  · cases heq
    exact htext
  · exact h n t hmem

lemma FitValues.filter {values : List (String × EntityValue)} (h : FitValues values)
    (keep : String × EntityValue → Bool) : FitValues (values.filter keep) :=
  fun n t hmem => h n t (List.mem_filter.mp hmem).1

section
variable {cs : List Char} {ds : Declarations}

/-- Declarations and the rest behind them. -/
abbrev FitDeclared (r : Declarations × List Char) : Prop := r.1.Fit ∧ Fit r.2

/-- What an entity stands for, and the rest behind it. -/
abbrev FitValue (r : EntityValue × List Char) : Prop :=
  (∀ text, r.1 = .replacement text → Fit text) ∧ Fit r.2

lemma fit_entityDeclaration (hds : ds.Fit) (h : Fit cs) :
    Yields (entityDeclaration? ds cs) FitDeclared := by
  unfold entityDeclaration?
  refine .bind (fit_skipSpace1 h) fun rest h => ?_
  extract_lets afterMark
  have hmark : ∀ r, Fit r.2 → Yields (afterMark r) FitDeclared := by
    intro ⟨general, rest⟩ h
    refine .bind (fit_plainName h) fun ⟨name, rest⟩ h => ?_
    refine .bind (fit_skipSpace1 h.2) fun rest h => ?_
    extract_lets afterValue
    have hvalue : ∀ r, FitValue r → Yields (afterValue r) FitDeclared := by
      intro ⟨value, rest⟩ ⟨hv, h⟩
      refine .bind (fit_closes h) fun rest h => ?_
      dsimp only
      split
      · exact .some ⟨⟨hds.general.snoc hv, hds.parameter⟩, h⟩
      · exact .some ⟨⟨hds.general, hds.parameter.snoc hv⟩, h⟩
    split
    · rename_i text rest hrest
      have hq := fit_quotedText h _ hrest
      refine .bind (.map ((fit_replacementOf hq.1).mono fun text htext => ?_)) hvalue
      refine ⟨fun t ht => ?_, hq.2⟩
      cases ht
      exact htext
    · refine .bind (.map ((fit_skipOutside general h).mono fun rest hrest => ?_)) hvalue
      exact ⟨fun t ht => (by cases ht), hrest⟩
  split
  · exact .bind (.map (fit_skipSpace1 h.tail)) hmark
  · exact hmark (true, _) h

/-! ## Declarations that are only checked for their form -/

lemma fit_skipMark (h : Fit cs) : Fit (skipMark cs) := by
  unfold skipMark
  split
  · split
    · exact h.tail
    · exact h
  · exact fit_nil

lemma fit_skipModel (fuel : Nat) (divider : Option Char) (h : Fit cs) :
    Yields (skipModel? divider fuel cs) Fit := by
  induction fuel generalizing divider cs with
  | zero => exact .none
  | succ fuel ih =>
    have hs := h.skipSpace
    unfold skipModel?
    extract_lets afterPart
    have hpart : ∀ rest, Fit rest → Yields (afterPart rest) Fit := by
      intro rest h
      have hm := (fit_skipMark h).skipSpace
      dsimp only [afterPart]
      split
      · rename_i rest hrest
        rw [hrest] at hm
        exact .some hm.tail
      · rename_i rest _ hrest
        rw [hrest] at hm
        split
        · exact ih _ hm.tail
        · exact .none
      · exact .none
    split
    · rename_i rest hrest
      rw [hrest] at hs
      exact .bind (ih _ hs.tail) hpart
    · exact .bind (.map ((fit_name hs).mono fun _ h => h.2)) hpart

lemma fit_skipMixed (fuel : Nat) (named : Bool) (h : Fit cs) :
    Yields (skipMixed? named fuel cs) Fit := by
  induction fuel generalizing named cs with
  | zero => exact .none
  | succ fuel ih =>
    have hs := h.skipSpace
    unfold skipMixed?
    split
    · rename_i rest hrest
      rw [hrest] at hs
      exact .some hs.tail.tail
    · rename_i rest _ hrest
      rw [hrest] at hs
      split
      · exact .none
      · exact .some hs.tail
    · rename_i rest hrest
      rw [hrest] at hs
      exact .bind (fit_name hs.tail.skipSpace) fun ⟨_, rest⟩ h => ih true h.2
    · exact .none

lemma fit_skipContent (h : Fit cs) : Yields (skipContent? cs) Fit := by
  unfold skipContent?
  split
  · rename_i rest hrest
    exact fit_skipMixed _ _ (fit_afterWord _ h.skipSpace rest hrest)
  · exact .map ((fit_skipModel _ _ h).mono fun _ h => fit_skipMark h)

lemma fit_elementDeclaration (h : Fit cs) : Yields (elementDeclaration? cs) Fit := by
  unfold elementDeclaration?
  refine .bind (fit_skipSpace1 h) fun rest h => ?_
  refine .bind (fit_name h) fun ⟨_, rest⟩ h => ?_
  refine .bind (fit_skipSpace1 h.2) fun rest h => ?_
  split
  · exact .bind (fit_skipContent h.tail) fun _ h => fit_closes h
  · exact .bind (.or (fit_afterWord _ h) (fit_afterWord _ h)) fun _ h => fit_closes h

lemma fit_word (h : Fit cs) : Yields (word? cs) FitBoth := by
  unfold word?
  dsimp only
  split
  · exact .none
  · exact .some ⟨h.takeWhile _, h.dropWhile _⟩

lemma fit_skipChoice {one : List Char → Option (List Char × List Char)}
    (hone : ∀ {cs}, Fit cs → Yields (one cs) FitBoth) (fuel : Nat) (h : Fit cs) :
    Yields (skipChoice? one fuel cs) Fit := by
  induction fuel generalizing cs with
  | zero => exact .none
  | succ fuel ih =>
    unfold skipChoice?
    refine .bind (hone h.skipSpace) fun ⟨_, rest⟩ h => ?_
    have hs := h.2.skipSpace
    dsimp only at hs ⊢
    split
    · rename_i rest hrest
      rw [hrest] at hs
      exact ih hs.tail
    · rename_i rest hrest
      rw [hrest] at hs
      exact .some hs.tail
    · exact .none

lemma fit_attributeType (h : Fit cs) : Yields (attributeType? cs) fun r => Fit r.2 := by
  unfold attributeType?
  split
  · exact .map (fit_skipChoice fit_word _ h.tail)
  · refine .bind (fit_name h) fun ⟨word, rest⟩ h => ?_
    dsimp only
    split
    · exact .some h.2
    · split
      · refine .bind (fit_skipSpace1 h.2) fun rest h => ?_
        split
        · exact .map (fit_skipChoice fit_name _ h.tail)
        · exact .none
      · split
        · exact .some h.2
        · exact .none

lemma fit_skipDefault (h : Fit cs) : Yields (skipDefault? cs) Fit := by
  unfold skipDefault?
  extract_lets value
  have hvalue : ∀ {cs}, Fit cs → Yields (value cs) Fit := by
    intro cs h
    refine .bind (fit_quotedText h) fun ⟨text, rest⟩ h => ?_
    refine .bind (fit_parts h.1) fun parts _ => ?_
    split
    · exact .none
    · exact .some h.2
  split
  · rename_i rest hrest
    exact .some (Yields.or (fit_afterWord _ h) (fit_afterWord _ h) rest hrest)
  · split
    · rename_i rest hrest
      exact .bind (fit_skipSpace1 (fit_afterWord _ h rest hrest)) fun _ h => hvalue h
    · exact hvalue h

lemma fit_notationDeclaration (h : Fit cs) : Yields (notationDeclaration? cs) Fit := by
  unfold notationDeclaration?
  refine .bind (fit_skipSpace1 h) fun rest h => ?_
  refine .bind (fit_plainName h) fun ⟨_, rest⟩ h => ?_
  refine .bind (fit_skipSpace1 h.2) fun rest h => ?_
  exact .bind (fit_skipExternal true h) fun rest h => fit_closes h

lemma fit_attributeDeclarations (element : String) (fuel : Nat) (hds : ds.Fit) (h : Fit cs) :
    Yields (attributeDeclarations? element fuel ds cs) FitDeclared := by
  induction fuel generalizing ds cs with
  | zero => exact .none
  | succ fuel ih =>
    unfold attributeDeclarations?
    split
    · rename_i rest hrest
      exact .some ⟨hds, fit_closes h rest hrest⟩
    · refine .bind (fit_skipSpace1 h) fun rest h => ?_
      refine .bind (fit_name h) fun ⟨name, rest⟩ h => ?_
      refine .bind (fit_skipSpace1 h.2) fun rest h => ?_
      refine .bind (fit_attributeType h) fun ⟨words, rest⟩ h => ?_
      refine .bind (fit_skipSpace1 h) fun rest h => ?_
      refine .bind (fit_skipDefault h) fun rest h => ?_
      refine ih ?_ h
      split
      · exact ⟨hds.general, hds.parameter⟩
      · exact hds

/-! ## All declarations -/

/-- A declaration that says nothing of entities and attributes is passed over. -/
lemma fit_plainDeclaration (h : Fit cs) :
    Yields (((afterWord? "<!ELEMENT" cs).bind elementDeclaration?).or
    ((afterWord? "<!NOTATION" cs).bind notationDeclaration?)) Fit :=
  .or (.bind (fit_afterWord _ h) fun _ h => fit_elementDeclaration h)
    (.bind (fit_afterWord _ h) fun _ h => fit_notationDeclaration h)

lemma fit_declarations (fuel : Nat) (bracketed : Bool) (hds : ds.Fit) (h : Fit cs) :
    Yields (declarations? bracketed fuel ds cs) FitDeclared := by
  induction fuel generalizing bracketed ds cs with
  | zero => exact .none
  | succ fuel ih =>
    have hs := h.skipSpace
    unfold declarations?
    split
    · split
      · exact .none
      · exact .some ⟨hds, fit_nil⟩
    · rename_i rest hrest
      rw [hrest] at hs
      split
      · exact .some ⟨hds, hs.tail⟩
      · exact .none
    · rename_i rest hrest
      rw [hrest] at hs
      refine .bind (fit_plainName hs.tail) fun ⟨name, rest⟩ hr => ?_
      dsimp only
      split
      · rename_i rest text hparameter
        have htext : Fit text := by
          obtain ⟨l, r, hsplit, -⟩ := List.lookup_eq_some_iff.mp hparameter
          exact hds.parameter (String.ofList name) text (by rw [hsplit]; simp)
        -- A parameter is out of reach in its own text, and is there again behind it.
        refine .bind (ih _ ⟨hds.general, hds.parameter.filter _⟩ htext) fun ⟨inner, _⟩ hinner => ?_
        exact ih _ ⟨hinner.1.general, hinner.1.parameter.cons htext⟩ hr.2.tail
      · exact ih _ hds hr.2.tail
      · exact .none
    · generalize skipSpace cs = cs at hs
      split
      · rename_i rest hrest
        exact .bind (fit_skipComment (fit_afterWord _ hs rest hrest)) fun _ h => ih _ hds h
      · split
        · rename_i rest hrest
          exact .bind (fit_instruction (fit_afterWord _ hs rest hrest)) fun ⟨_, _⟩ h => ih _ hds h.2
        · split
          · rename_i rest hrest
            exact .bind (fit_entityDeclaration hds (fit_afterWord _ hs rest hrest)) fun ⟨_, _⟩ h =>
              ih _ h.1 h.2
          · split
            · rename_i rest hrest
              refine .bind (fit_skipSpace1 (fit_afterWord _ hs rest hrest)) fun rest h => ?_
              refine .bind (fit_name h) fun ⟨element, rest⟩ h => ?_
              exact .bind (fit_attributeDeclarations _ _ hds h.2) fun ⟨_, _⟩ h => ih _ h.1 h.2
            · exact .bind (fit_plainDeclaration hs) fun _ h => ih _ hds h

/-- A document type whose entities can stand in a document, and the rest behind it. -/
abbrev FitType (r : DocumentType × List Char) : Prop := FitValues r.1.entities.values ∧ Fit r.2

lemma fitValues_nil : FitValues [] := by intro n t h; cases h

lemma fit_documentType (h : Fit cs) : Yields (documentType? cs) FitType := by
  unfold documentType?
  refine .bind (fit_skipSpace1 h) fun rest h => ?_
  refine .bind (fit_name h) fun ⟨name, rest⟩ h => ?_
  have hexternal : Yields ((skipSpace1? rest).bind (skipExternal? false)) Fit :=
    .bind (fit_skipSpace1 h.2) fun _ h => fit_skipExternal false h
  dsimp -zeta only
  extract_lets after
  have hafter : Fit after := by
    unfold after
    split
    · rename_i rest hrest
      exact hexternal rest hrest
    · exact h.2
  have hs := hafter.skipSpace
  split
  · rename_i rest hrest
    rw [hrest] at hs
    exact .some ⟨fitValues_nil, hs.tail⟩
  · rename_i rest hrest
    rw [hrest] at hs
    refine .bind (fit_declarations _ true ⟨fitValues_nil, fitValues_nil⟩ hs.tail)
      fun ⟨ds, rest⟩ h => ?_
    exact .bind (fit_closes h.2) fun rest hrest => .some ⟨h.1.general, hrest⟩
  · exact .none

theorem fit_prolog (h : Fit cs) : Yields (prolog? cs) FitType := by
  unfold prolog?
  refine .bind (fit_skipMisc _ h) fun rest h => ?_
  split
  · rename_i rest hrest
    exact fit_documentType (fit_afterWord _ h rest hrest)
  · exact .some ⟨fitValues_nil, h⟩

end
end SchemaLoom.Xml
