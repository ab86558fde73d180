import SchemaLoom.Proofs.Profile.Declaration
import SchemaLoom.Proofs.Sample.Tag
import SchemaLoom.Proofs.Sample.Value

/-! What a sample is, if it is built: every element in the namespace of the profile, with all its
attributes and the least number of each of the elements in it. No qualifier is ever invented. -/
namespace SchemaLoom.Sample
open Profile (Declaration Facts AttributeUse Siblings Forest Trail Event ElementProfile
  ConversionError placed placedGroups)
open Xml (Node QName Attribute BuildFault isPlainNameText)

/-! ## Steps that succeed -/

/-- Whenever a step succeeds, its result has a property. -/
def Gives {α : Type} (m : Building α) (Q : α → Prop) : Prop :=
  ∀ st a st', m.run st = (.ok a, st') → Q a

namespace Gives
variable {α β : Type} {Q : α → Prop} {R : β → Prop}

theorem pure {a : α} (h : Q a) : Gives (pure a) Q := by
  intro st b st' hb
  cases hb
  exact h

theorem mono {m : Building α} {Q' : α → Prop} (h : Gives m Q) (hq : ∀ a, Q a → Q' a) : Gives m Q' :=
  fun st a st' ha => hq a (h st a st' ha)

theorem throw (e : ConversionError) : Gives (throw e) Q := by
  intro st b st' hb
  cases hb

theorem bind {m : Building α} {f : α → Building β} (hm : Gives m Q)
    (hf : ∀ a, Q a → Gives (f a) R) :
    Gives (m >>= f) R := by
  intro st b st' hb
  change (ExceptT.bindCont f (m st).1) (m st).2 = _ at hb
  rcases hr : m.run st with ⟨e | a, st₁⟩
  · rw [show m st = _ from hr] at hb
    cases hb
  · rw [show m st = _ from hr] at hb
    exact hf a (hm st a st₁ hr) st₁ b st' hb

/-- A step without a result of interest is passed over. -/
theorem skip {m : Building α} {f : α → Building β} (hf : ∀ a, Gives (f a) R) : Gives (m >>= f) R :=
  bind (Q := fun _ => True) (fun _ _ _ _ => trivial) fun a _ => hf a

theorem check {r : Except BuildFault α} (h : ∀ a, r = .ok a → Q a) : Gives (check r) Q := by
  unfold Sample.check
  cases r with
  | ok a => exact pure (h a rfl)
  | error e => exact throw (.tree e)

/-- The sample text that is made is that of its type and facets. -/
theorem checkText (p : Profile.Primitive) (facets : List Profile.Facet) :
    Gives (checkText (sampleText? p facets)) (· = sampleText p facets) := by
  unfold Sample.checkText
  cases htext : sampleText? p facets with
  | some text => exact pure (eq_of_sampleText htext)
  | none => exact throw .overlong

theorem mapM {xs : List α} {f : α → Building β} {h : α → β} (hf : ∀ x ∈ xs, Gives (f x) (· = h x)) :
    Gives (xs.mapM f) (· = xs.map h) := by
  induction xs with
  | nil => exact pure rfl
  | cons x xs ih =>
    rw [List.mapM_cons]
    refine bind (hf x (by simp)) fun b hb => ?_
    refine bind (ih fun y hy => hf y (by simp [hy])) fun bs hbs => ?_
    rw [hb, hbs]
    exact pure rfl

theorem forM {xs : List α} {f : α → Building Unit} {P : α → Prop}
    (hf : ∀ x ∈ xs, Gives (f x) fun _ => P x) : Gives (xs.forM f) fun _ => ∀ x ∈ xs, P x := by
  induction xs with
  | nil => exact pure fun x hx => absurd hx List.not_mem_nil
  | cons x xs ih =>
    change Gives (f x >>= fun _ => xs.forM f) _
    refine bind (hf x (by simp)) fun _ hx => ?_
    refine (ih fun y hy => hf y (by simp [hy])).mono fun _ hxs => ?_
    exact List.forall_mem_cons.mpr ⟨hx, hxs⟩

/-- What holds anyway holds after a step. -/
theorem of_true {m : Building α} {P : Prop} (h : P) : Gives m fun _ => P := fun _ _ _ _ => h

end Gives

/-! ## Elements of a sample -/

/-- The name of an element: its namespace is the default one, unless it is that of `xml`. -/
def tagFor (uri : Option String) (name : String) : QName :=
  match uri with
  | none => .plain name
  | some given => ⟨if given = Xml.xmlNamespace then "xml" else "", name, some given⟩

/-- The bindings that the root of a sample has. -/
def rootBindings (uri : Option String) : List (String × String) :=
  (uri.map fun given => ("", given)).toList

def attributeFor (a : AttributeUse) : Attribute := ⟨.plain a.name, sampleText a.primitive a.facets⟩

/-- How many elements a sample has for a group. -/
def leastOf (r : Profile.Range) : Nat := r.lower.toNat

/-- An element as a sample shows it, with bindings of its own. -/
def specimen (uri : Option String) : Declaration → List (String × String) → Node :=
  Declaration.foldGroups fun f gs own =>
    .element (tagFor uri f.name) own (f.attributes.map attributeFor)
      (if gs.isEmpty then [.text (sampleText f.primitive f.facets)]
        else gs.flatMap fun g => List.replicate (leastOf (g.range (·.1.range))) (g.first.2 []))

theorem specimen_eq (uri : Option String) (d : Declaration) (own : List (String × String)) :
    specimen uri d own = .element (tagFor uri d.name) own (d.attributes.map attributeFor)
      (if d.children.isEmpty then [.text (sampleText d.primitive d.facets)]
        else d.groups.flatMap fun g =>
          List.replicate (leastOf (g.range Declaration.range)) (specimen uri g.first [])) := by
  have hempty : d.groups.isEmpty = d.children.isEmpty := by
    rw [Bool.eq_iff_iff, List.isEmpty_iff, List.isEmpty_iff]
    exact Declaration.groups_eq_nil
  rw [specimen, Declaration.foldGroups_eq, ← specimen]
  simp only [List.isEmpty_map, hempty, List.flatMap_map, Siblings.map_range, Siblings.map_first]
  rfl

/-- The names in a declaration can be written, and no attribute is declared twice. -/
structure Named (d : Declaration) : Prop where
  name : isPlainNameText d.name = true
  attributes : ∀ a ∈ d.attributes, isPlainNameText a.name = true
  distinct : (d.attributes.map AttributeUse.name).Nodup

section
variable {uri : Option String}

lemma gives_bindTag {own : List (String × String)} {outer : Scope}
    (hscope : own ++ outer = rootBindings uri) (name : String) :
    Gives (bindTag own outer uri name) (· = (tagFor uri name, own)) := by
  unfold bindTag
  rw [hscope]
  cases uri with
  | none => exact .pure rfl
  | some given =>
    refine .skip fun _ => ?_
    have hq : qualifierFor? false (rootBindings (some given)) given =
        some (if given = Xml.xmlNamespace then "xml" else "") := by
      unfold qualifierFor?
      by_cases hxml : given = Xml.xmlNamespace
      · simp [hxml]
      · simp [hxml, rootBindings]
    rw [hq]
    exact .pure rfl

lemma set_new {f : Front} {a : AttributeUse}
    (hnew : ∀ b ∈ f.attributes, b.name.localPart ≠ a.name) :
    f.set (.plain a.name) (sampleText a.primitive a.facets) =
      ⟨f.bindings, f.attributes ++ [attributeFor a]⟩ := by
  have hnone : ¬∃ b ∈ f.attributes, b.name.localPart = a.name ∧ b.name.uri = none := by
    rintro ⟨b, hb, hname, -⟩
    exact hnew b hb hname
  unfold Front.set
  simp only [QName.plain, List.any_eq_true, Bool.and_eq_true, beq_iff_eq, hnone, if_false]
  rfl

lemma gives_setAttribute {outer : Scope} {path : Trail} {f : Front} {a : AttributeUse} (k : Nat)
    (hname : isPlainNameText a.name = true)
    (hnew : ∀ b ∈ f.attributes, b.name.localPart ≠ a.name) :
    Gives (setAttribute outer path f (a, k))
    (· = ⟨f.bindings, f.attributes ++ [attributeFor a]⟩) := by
  unfold setAttribute
  dsimp only
  split
  · rename_i hempty
    rw [eq_of_beq hempty] at hname
    exact absurd hname (by decide)
  · refine .skip fun _ => .bind (.checkText a.primitive a.facets) fun value hvalue => ?_
    subst hvalue
    refine .bind (Q := (· = (none, a.name))) (.check fun r hr => ?_) fun r hr => ?_
    · exact splitTag_bare hr (not_braced_of_plain hname)
    · subst hr
      simp only [hname, Bool.not_true, Bool.false_eq_true, if_false]
      exact .pure (set_new hnew)

lemma gives_attributes {outer : Scope} {path : Trail} (bindings : List (String × String))
    {attributes : List AttributeUse} (hnames : ∀ a ∈ attributes, isPlainNameText a.name = true) :
    ∀ (k : Nat) (done : List AttributeUse), ((done ++ attributes).map AttributeUse.name).Nodup →
      Gives ((attributes.zipIdx k).foldlM (setAttribute outer path)
      ⟨bindings, done.map attributeFor⟩)
        (· = ⟨bindings, (done ++ attributes).map attributeFor⟩) := by
  induction attributes with
  | nil =>
    intro k done _
    rw [List.append_nil]
    exact .pure rfl
  | cons a rest ih =>
    intro k done hdistinct
    have hnew : ∀ b ∈ done.map attributeFor, b.name.localPart ≠ a.name := by
      intro b hb heq
      obtain ⟨c, hc, rfl⟩ := List.mem_map.mp hb
      rw [List.map_append, List.nodup_append] at hdistinct
      exact hdistinct.2.2 c.name (List.mem_map_of_mem hc) a.name (by simp) heq
    have hnext := ih (fun b hb => hnames b (by simp [hb])) (k + 1) (done ++ [a])
        (by simpa using hdistinct)
    rw [List.zipIdx_cons, List.foldlM_cons]
    refine .bind (gives_setAttribute k (hnames a (by simp)) hnew) fun f hf => ?_
    rw [hf]
    simpa using hnext

/-- A declaration at its place, ready to be written. -/
def samplerAt (uri : Option String) (p : Trail × Declaration) : Sampler := .of uri p.1 p.2

lemma ofAll_eq_placed (uri : Option String) (path : Trail) (k : Nat) (ds : List Declaration) :
    Sampler.ofAll uri path k ds = (placed path k ds).map (samplerAt uri) := by
  induction ds generalizing k with
  | nil => rfl
  | cons d ds ih =>
    rw [Sampler.ofAll, ih]
    rfl

lemma isEmpty_ofAll (uri : Option String) (path : Trail) (k : Nat) (ds : List Declaration) :
    (Sampler.ofAll uri path k ds).isEmpty = ds.isEmpty := by
  cases ds with
  | nil => rfl
  | cons d ds => rfl

@[simp] lemma samplerAt_declaration (uri : Option String) (p : Trail × Declaration) :
    (samplerAt uri p).declaration = p.2 := by
  obtain ⟨path, f, children⟩ := p
  rfl

lemma groups_ofAll (uri : Option String) (path : Trail) (ds : List Declaration) :
    Siblings.byName (·.declaration.name) (Sampler.ofAll uri path 0 ds) =
      (placedGroups path ds).map (Siblings.map (samplerAt uri)) := by
  have hname : (fun x : Sampler => x.declaration.name) ∘ samplerAt uri =
      fun p : Trail × Declaration => p.2.name := by
    funext p
    rw [Function.comp_apply, samplerAt_declaration]
  rw [ofAll_eq_placed, Siblings.byName_map, hname]
  rfl

/-- A group is written as often as it must occur. -/
lemma gives_writeGroup {scope : Scope} {g : Siblings (Trail × Declaration)} {n : Node}
    (hfirst : Gives ((samplerAt uri g.first).write [] scope) (· = n)) :
    Gives (writeGroup scope (g.map (samplerAt uri)))
      (· = List.replicate (leastOf (g.range (·.2.range))) n) := by
  have hrange : (g.map (samplerAt uri)).range (·.declaration.range) = g.range (·.2.range) := by
    rw [Siblings.map_range]
    simp only [Function.comp_def, samplerAt_declaration]
  unfold writeGroup
  refine .skip fun _ => ?_
  rw [hrange]
  refine (Gives.mapM fun _ _ => hfirst).mono fun ns hns => ?_
  rw [hns, List.map_replicate]
  rfl

/-- What is written of a declaration is its specimen. -/
theorem gives_write {F : Forest} (huri : ∀ given, uri = some given → IsNamespace given)
    (hnamed : ∀ d, F.Has d → Named d) :
    ∀ d, F.Has d → ∀ (path : Trail) (own : List (String × String))
      (outer : Scope), own ++ outer = rootBindings uri →
      Gives ((Sampler.of uri path d).write own outer) (· = specimen uri d own) := by
  intro d
  induction d using Declaration.induction with
  | h f children ih =>
    intro hd path own outer hscope
    obtain ⟨hname, hattributes, hdistinct⟩ := hnamed _ hd
    rw [specimen_eq]
    change Gives (writeElement uri path f (Sampler.ofAll uri path 0 children) own outer) _
    unfold writeElement
    refine .bind (.check fun r hr => tagOf_eq huri hname hr) fun r hr => ?_
    subst hr
    refine .skip fun _ => ?_
    refine .bind (gives_bindTag hscope _) fun r hr => ?_
    subst hr
    refine .bind (gives_attributes own hattributes 0 [] hdistinct) fun front hfront => ?_
    subst hfront
    rw [isEmpty_ofAll, groups_ofAll]
    dsimp only
    split
    · rename_i hempty
      refine .skip fun _ => .bind (.checkText f.primitive f.facets) fun text htext => .pure ?_
      subst htext
      simp only [Declaration.children, hempty, if_true]
      rfl
    · rename_i hne
      have hgroup : ∀ g ∈ placedGroups path children,
          Gives (writeGroup (own ++ outer) (g.map (samplerAt uri)))
            (· = List.replicate (leastOf (g.range (·.2.range))) (specimen uri g.first.2 [])) := by
        intro g hg
        have hchild : g.first.2 ∈ children := Profile.mem_of_mem_placed (Siblings.first_mem hg)
        exact gives_writeGroup (ih _ hchild (hd.child hchild) g.first.1 [] (own ++ outer) hscope)
      rw [List.mapM_map]
      refine .bind (.mapM hgroup) fun content hcontent => .pure ?_
      have hgroups := Profile.placedGroups_snd path (.mk f children)
      simp only [Declaration.children, hne, Bool.false_eq_true, if_false, ← hgroups,
        List.flatMap_map, Siblings.map_range, Siblings.map_first]
      rw [hcontent, List.flatMap_def]
      rfl

/-- Bindings of an element that is written are to references. -/
lemma gives_references (d : Declaration) (path : Trail) (own : List (String × String))
    (outer : Scope) :
    Gives ((Sampler.of uri path d).write own outer) fun _ =>
    ∀ b ∈ own, Uri.isReference b.2 = true := by
  obtain ⟨f, children⟩ := d
  change Gives (writeElement uri path f (Sampler.ofAll uri path 0 children) own outer) _
  unfold writeElement
  refine .skip fun _ => ?_
  refine .bind (.forM fun b _ => .skip fun _ => .check fun _ hcheck => ?_) fun _ hown =>
    .of_true hown
  unfold Xml.checkUri at hcheck
  split at hcheck
  · assumption
  · cases hcheck

end

/-- A sample is the specimen of the first root declaration. -/
theorem run_eq {p : ElementProfile} {sample : Node} (huri : p.uri ≠ some "")
    (hnamed : ∀ d, (Forest.ofRoots p.roots).Has d → Named d) (h : (run p).1 = .ok sample) :
    ∃ root rest, p.roots = root :: rest ∧ sample = specimen p.uri root (rootBindings p.uri) := by
  unfold run at h
  rw [ofAll_eq_placed] at h
  cases hroots : p.roots with
  | nil =>
    rw [hroots] at h
    cases h
  | cons root rest =>
    rw [hroots] at h
    rw [placed, List.map_cons] at h
    dsimp only at h
    rw [← rootBindings] at h
    have hroot : (Forest.ofRoots p.roots).Has root := Forest.has_of_mem (by rw [hroots]; simp)
    rcases hw : ((samplerAt p.uri ([] ++ [0], root)).write (rootBindings p.uri) []).run ⟨0, []⟩ with
      ⟨e | n, state⟩
    · rw [hw] at h
      cases h
    · rw [hw] at h
      cases h
      have hreferences := gives_references root _ _ _ _ _ _ hw
      have hspace : ∀ given, p.uri = some given → IsNamespace given := by
        intro given hgiven
        refine ⟨fun hempty => huri (by rw [hgiven, hempty]), hreferences ("", given) ?_⟩
        simp [rootBindings, hgiven]
      exact ⟨root, rest, rfl, gives_write hspace hnamed root hroot _ _ []
        (List.append_nil _) _ _ _ hw⟩

end SchemaLoom.Sample
