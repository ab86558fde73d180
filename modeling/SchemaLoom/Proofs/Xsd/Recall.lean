import SchemaLoom.Proofs.Xsd.Session
import SchemaLoom.Proofs.Xsd.Upkeep
import SchemaLoom.Proofs.Xsd.Wording

/-! What is remembered stays right whatever is asked of a compilation, in any order and also by
calls that fail: the digest of a place is always what it is without memory, and the types that were
made say nothing but what declarations say. -/
namespace SchemaLoom.Xsd
open Profile (Declaration Siblings Forest Trail ConversionError)

/-- All that is remembered is right, and all types are told. -/
structure Sound (s : Settings) (F : Forest) (c : Context) : Prop where
  known : Known s F c
  told : ∀ t ∈ c.registry.types, t.Told F

/-- Compiling may do anything to a context but put something wrong into it, or change its
namespace. -/
def recalling (s : Settings) (F : Forest) : Discipline where
  holds := Sound s F
  moves c c' := c'.uri = c.uri
  refl := Context.uri_refl
  trans := Context.uri_trans

/-- A step keeps contexts sound, whether it succeeds or fails, and its result has a property. -/
def Recalls (s : Settings) (F : Forest) {α : Type} (m : Compiling α) (Q : α → Prop) : Prop :=
  ∀ c, Sound s F c → Ends (recalling s F) m (fun a _ => Q a) (fun _ => True) c

section
variable {s : Settings} {F : Forest} {α β : Type} {Q : α → Prop} {R : β → Prop}

theorem sound_start (s : Settings) (F : Forest) (uri : Option String) : Sound s F (.start uri) :=
  ⟨known_start s F uri, by simp [Context.start, Registry.empty]⟩

namespace Recalls

theorem of_computes {m : Compiling α} {r : Except ConversionError α}
    (h : Computes (remembering s F) m r) : Recalls s F m (r = .ok ·) :=
  Yields.of_computes (D := recalling s F) h (fun _ hc => hc.known) fun _ _ hc hknown hmoves =>
    ⟨⟨hknown, by rw [hmoves.2]; exact hc.told⟩, hmoves.1⟩

theorem mono {Q' : α → Prop} {m : Compiling α} (h : Recalls s F m Q) (hq : ∀ a, Q a → Q' a) :
    Recalls s F m Q' := Yields.mono (D := recalling s F) h hq

theorem pure {a : α} (h : Q a) : Recalls s F (pure a) Q := Yields.pure (D := recalling s F) h

theorem bind {m : Compiling α} {f : α → Compiling β} (hm : Recalls s F m Q)
    (hf : ∀ a, Q a → Recalls s F (f a) R) : Recalls s F (m >>= f) R :=
  Yields.bind (D := recalling s F) hm hf

/-- A step without a result of interest is passed over. -/
theorem skip {m : Compiling α} {f : α → Compiling β} (hm : Recalls s F m Q)
    (hf : ∀ a, Recalls s F (f a) R) :
    Recalls s F (m >>= f) R := hm.bind fun a _ => hf a

theorem get_bind {f : Context → Compiling β} (h : ∀ c, Sound s F c → Recalls s F (f c) R) :
    Recalls s F (get >>= f) R := Yields.get_bind (D := recalling s F) h

theorem mapM {γ : Type} {P : γ → Prop} {xs : List α} {f : α → Compiling γ}
    (h : ∀ x ∈ xs, Recalls s F (f x) P) : Recalls s F (xs.mapM f) fun ys => ∀ y ∈ ys, P y := by
  have hall : Yields (recalling s F) (xs.mapM f) (List.Forall₂ (fun _ => P) xs) := .mapM h
  refine hall.mono fun ys hys y hy => ?_
  obtain ⟨-, -, hy⟩ := exists_of_mem_right hys hy
  exact hy

end Recalls

lemma recalls_tell (e : Profile.Event) : Recalls s F (tell e) fun _ => True :=
  (Recalls.of_computes (computes_tell e)).mono fun _ _ => trivial

lemma recalls_allocate (preferred : String) :
    Recalls s F (modify (·.allocate preferred)) fun _ => True := fun _ hc =>
  .modify ⟨hc.known, hc.told⟩ rfl trivial

/-- A told type may be put in. -/
lemma recalls_register {t : TypeDefinition} (ht : t.Told F) :
    Recalls s F (modify fun c => { c with registry := c.registry.register t }) fun _ => True := by
  intro c hc
  refine .modify ⟨hc.known, fun u hu => ?_⟩ rfl trivial
  obtain rfl | hu := Registry.eq_or_mem_of_mem_register hu
  · exact ht
  · exact hc.told u hu

lemma recalls_requireLegal (name : String) :
    Recalls s F (requireLegal name) fun _ => Xml.isLegalText name :=
  (Recalls.of_computes (computes_requireLegal name)).mono fun _ h => (underName_eq_ok h).1

lemma recalls_mergeAll {xs : List Subject} (hxs : ∀ x ∈ xs, x.Stands s F) :
    Recalls s F (mergeAll s (groups xs)) fun _ => True :=
  (Recalls.of_computes (computes_mergeAll fun _ hg x hx =>
    (hxs x (Siblings.mem_of_mem_members hg hx)).digest)).mono fun _ _ => trivial

/-- What is known of the body of a subject under some name, if it is compiled. -/
def Subject.Recalled (s : Settings) (F : Forest) (x : Subject) : Prop :=
  ∀ name, Recalls s F (x.body name) fun body => Xml.isLegalText name ∧ ∀ y ∈ body.texts, Told F y

lemma recalls_typeFor {g : Siblings Subject} (hg : g.first.Stands s F)
    (hbody : g.first.Recalled s F) (preferred : String) :
    Recalls s F (typeFor g preferred) fun name => Xml.isLegalText name := by
  unfold typeFor
  refine .skip (.of_computes hg.digest) fun digest => .get_bind fun c hc => ?_
  cases hfind : c.registry.find? digest with
  | some t =>
    have ht := hc.told t (Registry.find_eq_some hfind).1
    exact .skip (recalls_tell _) fun _ => .pure ht.name
  | none =>
    refine .get_bind fun c' _ => .skip (recalls_allocate preferred) fun _ => ?_
    refine .bind (hbody _) fun body hbody => ?_
    exact .skip (recalls_register ⟨hbody.1, hbody.2⟩) fun _ => .pure hbody.1

lemma recalls_particleOf {g : Siblings Subject} (hg : g.first.Stands s F)
    (hbody : g.first.Recalled s F) :
    Recalls s F (particleOf g) fun p => p.name = g.name ∧ ∀ x ∈ p.content.texts, Told F x := by
  unfold particleOf
  dsimp only
  split
  · refine .bind (recalls_typeFor hg hbody _) fun name hname => .get_bind fun c _ => .pure ⟨rfl, ?_⟩
    intro x hx
    rw [List.mem_singleton.mp hx]
    exact .inl (isLegalText_qualify hname _)
  · refine .bind (.of_computes (computes_leafContent _ _)) fun content hcontent => .pure ⟨rfl, ?_⟩
    cases hcontent
    exact told_leafContent hg.has

/-- The body of every declaration is compiled with contexts kept sound, to its end or to a
failure. -/
theorem recalls_body : ∀ (d : Declaration) (path : Trail), F.at? path = some d →
    (Subject.of s path d).Recalled s F := by
  intro d
  induction d using Declaration.induction with
  | h f children ih =>
    intro path hpath name
    change Recalls s F (bodyOf s path f (Subject.ofAll s path 0 children) name) _
    have hhas : F.Has (.mk f children) := ⟨path, hpath⟩
    rw [bodyOf_eq]
    refine .skip (recalls_mergeAll fun x hx => Subject.stands_ofAll hpath hx) fun _ => ?_
    split
    · have hparticles : Recalls s F ((groups (Subject.ofAll s path 0 children)).mapM particleOf)
          fun ps => ∀ p ∈ ps, ∀ x ∈ p.texts, Told F x := by
        refine .mapM fun g hg => ?_
        obtain ⟨hst, hgroup, hname⟩ := first_of_mem_groups hpath hg
        have hbody : g.first.Recalled s F := by
          rw [hst.eq_of]
          exact ih _ (Declaration.first_mem_children hgroup) _ hst.at_path
        refine (recalls_particleOf hst hbody).mono fun p hp => List.forall_mem_cons.mpr ⟨?_, hp.2⟩
        rw [hp.1, ← hname]
        exact told_name hst.has
      refine .bind (recalls_requireLegal name) fun _ hname => .bind hparticles fun ps hps => ?_
      refine .skip (.of_computes (computes_readAttributes path f)) fun _ => .pure ⟨hname, ?_⟩
      exact told_sequence hhas hps
    · refine (Recalls.of_computes (computes_leafBody path f name)).mono fun body hbody => ?_
      obtain ⟨hname, rfl⟩ := underName_eq_ok hbody
      exact ⟨hname, told_leafBody hhas⟩

lemma Place.recalled (x : Place F) : (x.subject s).Recalled s F := recalls_body _ _ x.at_path

/-- Whatever is asked, contexts stay sound. -/
theorem recalls_perform (k : Call F) : Recalls s F (k.perform s) fun _ => True := by
  cases k with
  | merge g =>
    refine (Recalls.of_computes (computes_merge fun y hy => ?_)).mono fun _ _ => trivial
    obtain ⟨x, -, rfl⟩ := List.mem_map.mp (by rwa [Siblings.map_members] at hy)
    exact x.stands.digest
  | mergeChildren x => exact recalls_mergeAll fun y hy => Subject.stands_ofAll x.at_path hy
  | fingerprint x => exact .skip (.of_computes x.stands.digest) fun _ => .pure trivial
  | build g preferred =>
    exact .skip (recalls_typeFor g.first.stands g.first.recalled preferred) fun _ => .pure trivial
  | body x name => exact .skip (x.recalled name) fun _ => .pure trivial
  | particle g =>
    exact .skip (recalls_particleOf g.first.stands g.first.recalled) fun _ => .pure trivial
  | allocate preferred => exact recalls_allocate preferred

theorem sound_after (calls : List (Call F)) {c : Context} (hc : Sound s F c) :
    Sound s F (Call.after s calls c) := by
  induction calls generalizing c with
  | nil => exact hc
  | cons k calls ih => exact ih (recalls_perform k c hc).holds

@[simp] lemma Place.subject_declaration (s : Settings) (x : Place F) :
    (x.subject s).declaration = x.declaration := Subject.of_declaration _ _ _

/-- What the digest of a place is found to be after some calls. -/
def Place.digestAfter (s : Settings) (x : Place F) (uri : Option String) (calls : List (Call F)) :
    Except ConversionError String := ((x.subject s).digest.run (Call.after s calls (.start uri))).1

/-- In a context whose memory is right, the digest of a place is what it is without memory. -/
theorem Place.digest_eq (x : Place F) {c : Context} (hc : Known s F c) :
    ((x.subject s).digest.run c).1 = s.judge x.declaration := by
  have hends := x.stands.digest c hc
  rw [x.subject_declaration] at hends
  cases h : ((x.subject s).digest.run c).1 with
  | ok digest => exact (hends.ok digest h).symm
  | error e => exact (hends.error e h).symm

lemma Place.digestAfter_permissive (hs : s.mode = .permissive) (x : Place F) (uri : Option String)
    (calls : List (Call F)) : x.digestAfter s uri calls = .ok (s.fingerprint x.declaration) := by
  rw [digestAfter, x.digest_eq ((sound_after calls (sound_start s F uri)).known),
    Settings.judge_permissive hs]

end

/-- After any calls, failed ones among them, the next digest is what it is without memory, or fails
as it does without memory, and all that is remembered is what it is without memory. -/
theorem memory_transparent (s : Settings) (F : Forest) (uri : Option String) (calls : List (Call F))
    (x : Place F) :
    x.digestAfter s uri calls = s.judge x.declaration ∧
      ∀ path digest, (path, digest) ∈ (Call.after s calls (.start uri)).digests →
        ∃ d, F.at? path = some d ∧ s.judge d = .ok digest := by
  have hknown := (sound_after calls (sound_start s F uri)).known
  exact ⟨x.digest_eq hknown, hknown⟩

end SchemaLoom.Xsd
