import Mathlib.Tactic.Lemma
import SchemaLoom.Xml.Dtd

/-! Reading makes no characters up: what is taken from a text of legal characters has only such,
entities and characters by number included. -/
namespace SchemaLoom.Xml

/-- An optional result has a property if it is there. -/
def Yields {α : Type} (o : Option α) (P : α → Prop) : Prop := ∀ a, o = some a → P a

namespace Yields
variable {α β : Type} {P P' : α → Prop} {Q : β → Prop}

theorem none : Yields (none : Option α) P := fun _ h => by cases h

theorem some {a : α} (h : P a) : Yields (some a) P := fun _ ha => by cases ha; exact h

theorem mono {o : Option α} (h : Yields o P) (hp : ∀ a, P a → P' a) : Yields o P' :=
  fun a ha => hp a (h a ha)

theorem bind {o : Option α} {f : α → Option β} (h : Yields o P) (hf : ∀ a, P a → Yields (f a) Q) :
    Yields (o.bind f) Q := by
  intro b hb
  obtain ⟨a, ha, hb⟩ := Option.bind_eq_some_iff.mp hb
  exact hf a (h a ha) b hb

theorem map {o : Option α} {f : α → β} (h : Yields o fun a => Q (f a)) : Yields (o.map f) Q := by
  intro b hb
  obtain ⟨a, ha, rfl⟩ := Option.map_eq_some_iff.mp hb
  exact h a ha

theorem or {o o' : Option α} (h : Yields o P) (h' : Yields o' P) : Yields (o.or o') P := by
  cases o with
  | none => exact h'
  | some a => exact h

theorem filter {o : Option α} {p : α → Bool} (h : Yields o P) : Yields (o.filter p) P :=
  fun a ha => h a (Option.filter_eq_some_iff.mp ha).1

theorem mapM {xs : List α} {f : α → Option β} (h : ∀ a ∈ xs, Yields (f a) Q) :
    Yields (xs.mapM f) fun bs => ∀ b ∈ bs, Q b := by
  induction xs with
  | nil => exact some (by simp)
  | cons x xs ih =>
    rw [List.mapM_cons]
    refine bind (h x (by simp)) fun b hb => ?_
    refine bind (ih fun y hy => h y (by simp [hy])) fun bs hbs => ?_
    exact some (List.forall_mem_cons.mpr ⟨hb, hbs⟩)

end Yields

/-- A text has only characters that a document can hold. -/
def Fit (cs : List Char) : Prop := ∀ c ∈ cs, isXmlChar c = true

/-- A text in two parts, such as a result and the rest after it. -/
abbrev FitBoth (r : List Char × List Char) : Prop := Fit r.1 ∧ Fit r.2

section
variable {cs : List Char}

theorem Fit.mono {ds : List Char} (h : Fit cs) (hsub : ds ⊆ cs) : Fit ds :=
  fun c hc => h c (hsub hc)

theorem fit_nil : Fit [] := by intro c hc; cases hc

@[simp] theorem fit_cons {c : Char} : Fit (c :: cs) ↔ isXmlChar c = true ∧ Fit cs :=
  List.forall_mem_cons

theorem Fit.tail {c : Char} (h : Fit (c :: cs)) : Fit cs := (fit_cons.mp h).2

theorem Fit.takeWhile (h : Fit cs) (p : Char → Bool) : Fit (cs.takeWhile p) :=
  h.mono (List.takeWhile_subset p)

theorem Fit.dropWhile (h : Fit cs) (p : Char → Bool) : Fit (cs.dropWhile p) :=
  h.mono (List.dropWhile_subset p)

theorem Fit.skipSpace (h : Fit cs) : Fit (skipSpace cs) := h.dropWhile isSpace

/-! ## Words, blanks and quotes -/

lemma fit_after {word : List Char} (h : Fit cs) : Yields (after? word cs) Fit := by
  induction word generalizing cs with
  | nil => exact .some h
  | cons e es ih =>
    cases cs with
    | nil => exact .none
    | cons c cs =>
      rw [after?]
      split
      · exact ih h.tail
      · exact .none

lemma fit_afterWord (word : String) (h : Fit cs) : Yields (afterWord? word cs) Fit := fit_after h

lemma fit_skipSpace1 (h : Fit cs) : Yields (skipSpace1? cs) Fit := by
  unfold skipSpace1?
  split
  · split
    · exact .some h.tail.skipSpace
    · exact .none
  · exact .none

lemma fit_quotedText (h : Fit cs) : Yields (quotedText? cs) FitBoth := by
  unfold quotedText?
  split
  · rename_i q rest
    split
    · split
      · rename_i back hback
        have hd := h.tail.dropWhile (· != q)
        rw [hback] at hd
        exact .some ⟨h.tail.takeWhile _, hd.tail⟩
      · exact .none
    · exact .none
  · exact .none

lemma fit_skipEquals (h : Fit cs) : Yields (skipEquals? cs) Fit := by
  unfold skipEquals?
  split
  · rename_i rest hrest
    have hs := h.skipSpace
    rw [hrest] at hs
    exact .some hs.tail.skipSpace
  · exact .none

/-! ## The declaration at the start -/

lemma fit_declared (word : String) (h : Fit cs) : Yields (declared? word cs) FitBoth := by
  unfold declared?
  refine .bind (fit_afterWord word h) fun rest h => ?_
  exact .bind (fit_skipEquals h) fun rest h => fit_quotedText h

lemma fit_standaloneEnd (h : Fit cs) : Yields (standaloneEnd? cs) Fit := by
  unfold standaloneEnd?
  split
  · rename_i rest hrest
    exact .some (fit_afterWord _ h.skipSpace rest hrest)
  · refine .bind (fit_skipSpace1 h) fun rest h => ?_
    refine .bind (fit_declared _ h) fun ⟨value, rest⟩ h => ?_
    dsimp only
    split
    · exact fit_afterWord _ h.2.skipSpace
    · exact .none

lemma fit_declaration (h : Fit cs) : Yields (declaration? cs) fun r => Fit r.2 := by
  unfold declaration?
  refine .bind (fit_afterWord _ h) fun rest h => ?_
  refine .bind (fit_skipSpace1 h) fun rest h => ?_
  refine .bind (fit_declared _ h) fun ⟨version, rest⟩ h => ?_
  have hencoding : Yields ((skipSpace1? rest).bind (declared? "encoding")) FitBoth :=
    .bind (fit_skipSpace1 h.2) fun rest h => fit_declared _ h
  dsimp only
  split
  · exact .none
  · split
    · rename_i name rest hrest
      split
      · exact .map (fit_standaloneEnd (hencoding _ hrest).2)
      · exact .none
    · exact .map (fit_standaloneEnd h.2)

lemma fit_afterDeclaration (h : Fit cs) : Yields (afterDeclaration? cs) Fit := by
  unfold afterDeclaration?
  split
  · exact .map (fit_declaration h)
  · exact .some h

/-! ## References -/

/-- A part of a text stands for characters that a document can hold, or names them. -/
def TextPart.Fit : TextPart → Prop
  | .plain c => isXmlChar c = true
  | .numbered c => isXmlChar c = true
  | .given name c => Xml.Fit name.toList ∧ isXmlChar c = true
  | .entity name => Xml.Fit name.toList

lemma fit_numbered (base : Nat) (digits : List Char) :
    Yields (numbered? base digits) fun c => isXmlChar c = true := by
  intro c hc
  unfold numbered? at hc
  split at hc
  · cases hc
  · obtain ⟨values, -, hc⟩ := Option.bind_eq_some_iff.mp hc
    dsimp only at hc
    split at hc
    · rename_i hfit
      cases hc
      simp only [Bool.and_eq_true] at hfit
      exact hfit.2
    · cases hc

lemma fit_given {name : String} {c : Char} (h : givenNames.lookup name = some c) :
    isXmlChar c = true := by
  obtain ⟨l, r, hsplit, -⟩ := List.lookup_eq_some_iff.mp h
  have hall : ∀ e ∈ givenNames, isXmlChar e.2 = true := by decide
  exact hall (name, c) (by rw [hsplit]; simp)

lemma fit_reference (h : Fit cs) : Yields (reference? cs) TextPart.Fit := by
  unfold reference?
  split
  · exact .map (fit_numbered 16 _)
  · exact .map (fit_numbered 10 _)
  · have hname : Fit (String.ofList cs).toList := by rwa [String.toList_ofList]
    split
    · dsimp only
      split
      · rename_i c hc
        exact .some ⟨hname, fit_given hc⟩
      · exact .some hname
    · exact .none

lemma fit_partsFrom {pending : Option (List Char)} (hp : ∀ name, pending = some name → Fit name)
    (h : Fit cs) : Yields (partsFrom? pending cs) fun parts => ∀ p ∈ parts, p.Fit := by
  induction cs generalizing pending with
  | nil =>
    rw [partsFrom?]
    split
    · exact .some (by simp)
    · exact .none
  | cons c rest ih =>
    obtain ⟨hc, hrest⟩ := fit_cons.mp h
    cases pending with
    | none =>
      rw [partsFrom?]
      split
      · exact ih (fun name hn => by cases hn; exact fit_nil) hrest
      · refine .map ((ih (by simp) hrest).mono fun parts hparts => ?_)
        exact List.forall_mem_cons.mpr ⟨hc, hparts⟩
    | some name =>
      have hname := hp name rfl
      rw [partsFrom?]
      split
      · have hrev : Fit name.reverse := fun c hc => hname c (List.mem_reverse.mp hc)
        refine .bind (fit_reference hrev) fun part hpart => ?_
        refine .bind (ih (by simp) hrest) fun parts hparts => ?_
        exact .some (List.forall_mem_cons.mpr ⟨hpart, hparts⟩)
      · exact ih (fun n hn => by cases hn; exact fit_cons.mpr ⟨hc, hname⟩) hrest

lemma fit_parts (h : Fit cs) : Yields (parts? cs) fun parts => ∀ p ∈ parts, p.Fit :=
  fit_partsFrom (by simp) h

/-- What entities stand for can stand in a document. -/
def FitValues (values : List (String × EntityValue)) : Prop :=
  ∀ name text, (name, EntityValue.replacement text) ∈ values → Fit text

lemma fit_replacement {es : Entities} (hes : FitValues es.values) (name : String) :
    Yields (es.replacement? name) Fit := by
  unfold Entities.replacement?
  split
  · rename_i text size htext _
    split
    · obtain ⟨l, r, hsplit, -⟩ := List.lookup_eq_some_iff.mp htext
      exact .some (hes name text (by rw [hsplit]; simp))
    · exact .none
  · exact .none

lemma fit_flatten {css : List (List Char)} (h : ∀ cs ∈ css, Fit cs) : Fit css.flatten := by
  intro c hc
  obtain ⟨cs, hcs, hc⟩ := List.mem_flatten.mp hc
  exact h cs hcs c hc

/-- The value of an attribute is fit where its parts and the entities are. -/
lemma fit_valueOf {es : Entities} (hes : FitValues es.values) (depth : Nat) {parts : List TextPart}
    (hparts : ∀ p ∈ parts, p.Fit) : Yields (valueOf? es depth parts) Fit := by
  induction depth using Nat.strongRecOn generalizing parts with
  | ind depth ih =>
    unfold valueOf?
    refine .bind (P := fun pieces => ∀ cs ∈ pieces, Fit cs) (.mapM fun p hp => ?_)
      fun pieces h => ?_
    · have hfit := hparts p hp
      cases p with
      | plain c =>
        have hblank : isXmlChar (if isSpace c then ' ' else c) = true := by
          split
          · decide
          · exact hfit
        dsimp only
        split
        · exact .none
        · exact .some (fit_cons.mpr ⟨hblank, fit_nil⟩)
      | numbered c => exact .some (fit_cons.mpr ⟨hfit, fit_nil⟩)
      | given name c => exact .some (fit_cons.mpr ⟨hfit.2, fit_nil⟩)
      | entity name =>
        cases depth with
        | zero => exact .none
        | succ depth =>
          refine .bind (fit_replacement hes name) fun text htext => ?_
          refine .bind (fit_parts htext) fun inner hinner => ?_
          exact ih depth (by omega) hinner
    · exact .some (fit_flatten h)

end
end SchemaLoom.Xml
