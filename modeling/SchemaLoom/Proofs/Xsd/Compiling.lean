import Mathlib.Data.List.Forall2
import Mathlib.Tactic.Lemma
import SchemaLoom.Xsd.Compile

/-! Reasoning on steps of a compilation: an invariant of contexts, a relation between the contexts
before and after, and what is known of the result or of the failure. -/
namespace SchemaLoom.Xsd
open Profile (Event ConversionError)

section
variable {α β : Type}

@[simp] theorem run_pure (a : α) (c : Context) : (pure a : Compiling α).run c = (.ok a, c) := rfl

@[simp] theorem run_throw (e : ConversionError) (c : Context) :
    (throw e : Compiling α).run c = (.error e, c) := rfl

@[simp] theorem run_tell (e : Event) (c : Context) :
    (tell e).run c = (.ok (), { c with events := e :: c.events }) := rfl

theorem run_get_bind (f : Context → Compiling β) (c : Context) : (get >>= f).run c =
    (f c).run c := rfl

theorem run_bind (m : Compiling α) (f : α → Compiling β) (c : Context) :
    (m >>= f).run c = match m.run c with
      | (.ok a, c') => (f a).run c'
      | (.error e, c') => (.error e, c') := by
  change (ExceptT.bind m f).run c = _
  unfold ExceptT.bind ExceptT.run ExceptT.mk
  change (ExceptT.bindCont f (m c).1) (m c).2 = _
  rcases m c with ⟨_ | a, c'⟩ <;> rfl

end

/-- What a compilation keeps, and how it may change a context. -/
structure Discipline where
  holds : Context → Prop
  moves : Context → Context → Prop
  refl : ∀ c, moves c c
  trans : ∀ {a b c}, moves a b → moves b c → moves a c

/-! Contexts of one namespace, for disciplines under which it stays as it is. -/

lemma Context.uri_refl (c : Context) : c.uri = c.uri := rfl

lemma Context.uri_trans {c c' c'' : Context} (h : c'.uri = c.uri) (h' : c''.uri = c'.uri) :
    c''.uri = c.uri :=
  h'.trans h

/-- Run from a context, a step keeps to a discipline; its result has one property and its failure
another. -/
structure Ends {α : Type} (D : Discipline) (m : Compiling α) (Q : α → Context → Prop)
    (E : ConversionError → Prop) (c : Context) : Prop where
  holds : D.holds (m.run c).2
  moves : D.moves c (m.run c).2
  ok : ∀ a, (m.run c).1 = .ok a → Q a (m.run c).2
  error : ∀ e, (m.run c).1 = .error e → E e

namespace Ends
variable {α β : Type} {D : Discipline} {Q : α → Context → Prop} {R : β → Context → Prop}
  {E : ConversionError → Prop} {c : Context}

theorem pure {a : α} (hc : D.holds c) (hq : Q a c) : Ends D (pure a : Compiling α) Q E c where
  holds := hc
  moves := D.refl c
  ok _ h := by cases h; exact hq
  error _ h := by cases h

theorem throw {e : ConversionError} (hc : D.holds c) (he : E e) :
    Ends D (throw e : Compiling α) Q E c where
  holds := hc
  moves := D.refl c
  ok _ h := by cases h
  error _ h := by cases h; exact he

theorem bind {m : Compiling α} {f : α → Compiling β} (hm : Ends D m Q E c)
    (hf : ∀ a c', D.holds c' → D.moves c c' → Q a c' → Ends D (f a) R E c') :
    Ends D (m >>= f) R E c := by
  obtain ⟨h1, h2, h3, h4⟩ := hm
  rcases hr : m.run c with ⟨e | a, c'⟩
  · simp only [hr] at h1 h2 h3 h4
    refine ⟨?_, ?_, ?_, ?_⟩ <;> simp only [run_bind, hr]
    · exact h1
    · exact h2
    · intro a h; cases h
    · intro e' h; cases h; exact h4 e rfl
  · simp only [hr] at h1 h2 h3 h4
    obtain ⟨g1, g2, g3, g4⟩ := hf a c' h1 h2 (h3 a rfl)
    refine ⟨?_, ?_, ?_, ?_⟩ <;> simp only [run_bind, hr]
    · exact g1
    · exact D.trans h2 g2
    · exact g3
    · exact g4

/-- Reading the context changes nothing. -/
theorem get_bind {f : Context → Compiling β} (h : Ends D (f c) R E c) : Ends D (get >>= f) R E c :=
  ⟨h.holds, h.moves, h.ok, h.error⟩

theorem modify {g : Context → Context} {Q : Unit → Context → Prop} (hc : D.holds (g c))
    (hm : D.moves c (g c)) (hq : Q () (g c)) : Ends D (modify g : Compiling Unit) Q E c where
  holds := hc
  moves := hm
  ok _ h := by cases h; exact hq
  error _ h := by cases h

theorem mono {m : Compiling α} {Q' : α → Context → Prop} {E' : ConversionError → Prop}
    (h : Ends D m Q E c) (hq : ∀ a c', D.holds c' → D.moves c c' → Q a c' → Q' a c')
    (he : ∀ e, E e → E' e) : Ends D m Q' E' c where
  holds := h.holds
  moves := h.moves
  ok a ha := hq a _ h.holds h.moves (h.ok a ha)
  error e hr := he e (h.error e hr)

/-- What keeps to one discipline keeps to another one that is implied by it from here on. -/
theorem change {D' : Discipline} {m : Compiling α} (h : Ends D m Q E c)
    (hholds : ∀ c', D.holds c' → D.moves c c' → D'.holds c')
    (hmoves : ∀ c', D.holds c' → D.moves c c' → D'.moves c c') : Ends D' m Q E c where
  holds := hholds _ h.holds h.moves
  moves := hmoves _ h.holds h.moves
  ok := h.ok
  error := h.error

/-- The results of a loop have the properties of its rounds, which later rounds leave alone. -/
theorem mapM {xs : List α} {f : α → Compiling β} {R : α → β → Context → Prop} (hc : D.holds c)
    (hf : ∀ x ∈ xs, ∀ c', D.holds c' → Ends D (f x) (R x) E c')
    (stable : ∀ x b c c', D.holds c → D.holds c' → D.moves c c' → R x b c → R x b c') :
    Ends D (xs.mapM f) (fun bs c' => List.Forall₂ (R · · c') xs bs) E c := by
  induction xs generalizing c with
  | nil => exact pure hc .nil
  | cons x xs ih =>
    rw [List.mapM_cons]
    refine bind (hf x (by simp) c hc) fun b c' hc' _ hb => ?_
    refine bind (ih hc' fun y hy => hf y (by simp [hy])) fun bs c'' hc'' hm hbs => ?_
    exact pure hc'' (.cons (stable x b c' c'' hc' hc'' hm hb) hbs)

end Ends

/-- Wherever the discipline holds, a step has one result. -/
def Computes {α : Type} (D : Discipline) (m : Compiling α) (r : Except ConversionError α) : Prop :=
  ∀ c, D.holds c → Ends D m (fun a _ => r = .ok a) (fun e => r = .error e) c

namespace Computes
variable {α β γ : Type} {D : Discipline}

theorem pure (a : α) : Computes D (pure a) (.ok a) := fun _ hc => .pure hc rfl

theorem throw (e : ConversionError) : Computes D (throw e : Compiling α) (.error e) :=
  fun _ hc => .throw hc rfl

theorem bind {m : Compiling α} {r : Except ConversionError α} {f : α → Compiling β}
    {k : α → Except ConversionError β} (hm : Computes D m r)
    (hf : ∀ a, r = .ok a → Computes D (f a) (k a)) : Computes D (m >>= f) (r >>= k) := by
  intro c hc
  cases r with
  | error e =>
    -- The first step fails, and what follows it is not reached.
    have hfail : Ends D m (fun _ _ => False) (fun e' => (.error e : Except ConversionError β) =
        .error e') c := by
      refine (hm c hc).mono (fun a _ _ _ h => by cases h) fun e' h => ?_
      cases h
      rfl
    exact hfail.bind fun _ _ _ _ h => h.elim
  | ok a =>
    have hm' : Ends D m (fun b _ => b = a) (fun e => k a = .error e) c := by
      refine (hm c hc).mono (fun b _ _ _ h => ?_) fun e' h => by cases h
      cases h
      rfl
    refine hm'.bind fun b c' hc' _ hb => ?_
    subst hb
    exact hf b rfl c' hc'

/-- A step without a result of interest is passed over. -/
theorem skip {m : Compiling Unit} {f : Unit → Compiling β} {r : Except ConversionError β}
    (hm : Computes D m (.ok ())) (hf : Computes D (f ()) r) : Computes D (m >>= f) r :=
  bind (k := fun _ => r) hm fun _ _ => hf

theorem forM {xs : List α} {f : α → Compiling Unit} {h : α → γ}
    {k : γ → Except ConversionError Unit} (hf : ∀ x ∈ xs, Computes D (f x) (k (h x))) :
    Computes D (xs.forM f) ((xs.map h).forM k) := by
  induction xs with
  | nil => exact pure ()
  | cons x xs ih =>
    exact bind (hf x (by simp)) fun _ _ => ih fun y hy => hf y (by simp [hy])

theorem mapM {xs : List α} {f : α → Compiling β} {h : α → γ} {k : γ → Except ConversionError β}
    (hf : ∀ x ∈ xs, Computes D (f x) (k (h x))) : Computes D (xs.mapM f) ((xs.map h).mapM k) := by
  induction xs with
  | nil => exact pure []
  | cons x xs ih =>
    rw [List.map_cons, List.mapM_cons, List.mapM_cons]
    refine bind (hf x (by simp)) fun b _ => ?_
    exact bind (ih fun y hy => hf y (by simp [hy])) fun bs _ => pure (b :: bs)

end Computes

/-- Wherever the discipline holds, a step keeps to it, whether it succeeds or fails, and its result
has a property. -/
def Yields {α : Type} (D : Discipline) (m : Compiling α) (Q : α → Prop) : Prop :=
  ∀ c, D.holds c → Ends D m (fun a _ => Q a) (fun _ => True) c

namespace Yields
variable {α β γ : Type} {D : Discipline} {Q Q' : α → Prop} {R : β → Prop}

theorem mono {m : Compiling α} (h : Yields D m Q) (hq : ∀ a, Q a → Q' a) : Yields D m Q' :=
  fun c hc => (h c hc).mono (fun a _ _ _ => hq a) fun _ h => h

theorem pure {a : α} (h : Q a) : Yields D (pure a) Q := fun _ hc => .pure hc h

theorem bind {m : Compiling α} {f : α → Compiling β} (hm : Yields D m Q)
    (hf : ∀ a, Q a → Yields D (f a) R) :
    Yields D (m >>= f) R := fun c hc => (hm c hc).bind fun a c' hc' _ ha => hf a ha c' hc'

/-- A step without a result of interest is passed over. -/
theorem skip {m : Compiling α} {f : α → Compiling β} (hm : Yields D m Q)
    (hf : ∀ a, Yields D (f a) R) :
    Yields D (m >>= f) R := hm.bind fun a _ => hf a

theorem get_bind {f : Context → Compiling β} (h : ∀ c, D.holds c → Yields D (f c) R) :
    Yields D (get >>= f) R := fun c hc => .get_bind (h c hc c hc)

theorem mapM {P : α → γ → Prop} {xs : List α} {f : α → Compiling γ}
    (h : ∀ x ∈ xs, Yields D (f x) (P x)) :
    Yields D (xs.mapM f) (List.Forall₂ P xs) :=
  fun _ hc => .mapM (R := fun x y _ => P x y) hc (fun x hx c hc => h x hx c hc)
    fun _ _ _ _ _ _ _ h => h

/-- What is computed under one discipline is yielded under another one that follows from it. -/
theorem of_computes {D' : Discipline} {m : Compiling α} {r : Except ConversionError α}
    (h : Computes D' m r) (hfrom : ∀ c, D.holds c → D'.holds c)
    (hto : ∀ c c', D.holds c → D'.holds c' → D'.moves c c' → D.holds c' ∧ D.moves c c') :
    Yields D m (r = .ok ·) :=
  fun c hc => ((h c (hfrom c hc)).mono (fun _ _ _ _ h => h) fun _ _ => trivial).change
    (fun c' hc' hm => (hto c c' hc hc' hm).1) fun c' hc' hm => (hto c c' hc hc' hm).2

end Yields
end SchemaLoom.Xsd
