import SchemaLoom.Proofs.Profile.Document
import SchemaLoom.Proofs.Xml.Tree
import SchemaLoom.Proofs.Xsd.Registry

/-! Where the texts in a schema come from: each is the name of a type, or is said by a declaration.
In a document there are legal texts only, and so there are in its declarations. -/
namespace SchemaLoom.Profile
open Xml (Node)

def AttributeUse.texts (a : AttributeUse) : List String := a.name :: a.facets.map Facet.value

/-- The texts that a declaration says of an element. -/
def Facts.texts (f : Facts) : List String :=
  f.name :: (f.facets.map Facet.value ++ f.attributes.flatMap AttributeUse.texts)

section
variable {n : Node}

lemma isLegalText_nameOf (h : n.IsLegal) : Xml.isLegalText (nameOf n) := by
  unfold nameOf
  cases hv : n.attribute? "name" with
  | none => decide
  | some name => exact h.attribute hv

lemma isLegalText_filled (h : n.IsLegal) {names : List String} {value : String}
    (hv : filled? n names = some value) : Xml.isLegalText value := by
  obtain ⟨name, -, hname⟩ := List.exists_of_findSome?_eq_some hv
  exact h.attribute (Option.filter_eq_some_iff.mp hname).1

lemma isLegalText_facetsOf (h : n.IsLegal) (p : Primitive) :
    ∀ f ∈ facetsOf n p, Xml.isLegalText f.value := by
  intro f hf
  unfold facetsOf at hf
  dsimp only at hf
  obtain hf | hf := List.mem_append.mp hf
  · split at hf
    · obtain hf | hf := List.mem_append.mp hf
      · obtain ⟨k, -, rfl⟩ := Option.map_eq_some_iff.mp (Option.mem_toList.mp hf)
        exact Xsd.isLegalText_natText k
      · obtain ⟨k, -, rfl⟩ := Option.map_eq_some_iff.mp (Option.mem_toList.mp hf)
        exact Xsd.isLegalText_natText k
    · cases hf
  · obtain ⟨pattern, hpattern, rfl⟩ := Option.map_eq_some_iff.mp (Option.mem_toList.mp hf)
    exact isLegalText_filled h hpattern

lemma isLegalText_attributeUse (h : n.IsLegal) :
    ∀ x ∈ (AttributeUse.ofNode n).texts, Xml.isLegalText x := by
  intro x hx
  obtain rfl | hx := List.mem_cons.mp hx
  · exact isLegalText_nameOf h
  · obtain ⟨f, hf, rfl⟩ := List.mem_map.mp hx
    exact isLegalText_facetsOf h _ f hf

/-- What a declaration says in a legal document is legal. -/
theorem isLegalText_facts (h : n.IsLegal) : ∀ x ∈ (Facts.ofNode n).texts, Xml.isLegalText x := by
  intro x hx
  obtain rfl | hx := List.mem_cons.mp hx
  · exact isLegalText_nameOf h
  obtain hx | hx := List.mem_append.mp hx
  · obtain ⟨f, hf, rfl⟩ := List.mem_map.mp hx
    exact isLegalText_facetsOf h _ f hf
  · obtain ⟨a, ha, hx⟩ := List.mem_flatMap.mp hx
    obtain ⟨k, hk, rfl⟩ := List.mem_map.mp ha
    exact isLegalText_attributeUse (h.childrenNamed hk) x hx

end

lemma isLegal_holder {document : Node} {source : Source} (h : document.IsLegal)
    (hdoc : Source.ofDocument document = .ok source) : source.holder.IsLegal :=
  h.of_mem_walk (holder_mem_walk hdoc)

/-- All that is declared in a legal document is legal. -/
theorem isLegalText_declared {source : Source} (h : source.holder.IsLegal) {d : Declaration}
    (hd : (Forest.ofRoots source.profile.roots).Has d) :
    ∀ x ∈ d.facts.texts, Xml.isLegalText x := by
  obtain ⟨n, hn, rfl⟩ := exists_node_of_has (fun n hn k hk => hn.childrenNamed hk) h hd
  rw [facts_ofNode]
  exact isLegalText_facts hn

end SchemaLoom.Profile

namespace SchemaLoom.Xsd
open Profile (Facts Forest AttributeUse Facet)

def Content.texts : Content → List String
  | .named reference => [reference]
  | .builtin _ => []
  | .restricted facets => facets.map Facet.value
  | .extended _ attributes => attributes.flatMap AttributeUse.texts

def Particle.texts (p : Particle) : List String := p.name :: p.content.texts

def TypeBody.texts : TypeBody → List String
  | .sequence particles attributes =>
  particles.flatMap Particle.texts ++ attributes.flatMap AttributeUse.texts
  | .extended _ attributes => attributes.flatMap AttributeUse.texts
  | .restricted facets => facets.map Facet.value

/-- A text is said by a declaration of a forest, or is legal. -/
def Told (F : Forest) (x : String) : Prop := Xml.isLegalText x ∨ ∃ d, F.Has d ∧ x ∈ d.facts.texts

/-- A type has a legal name, and all in it is told. -/
structure TypeDefinition.Told (F : Forest) (t : TypeDefinition) : Prop where
  name : Xml.isLegalText t.name
  body : ∀ x ∈ t.body.texts, Xsd.Told F x

section
variable {F : Forest} {d : Profile.Declaration}

lemma told_name (hd : F.Has d) : Told F d.name := .inr ⟨d, hd, List.mem_cons_self⟩

lemma told_facets (hd : F.Has d) : ∀ x ∈ d.facets.map Facet.value, Told F x := fun _ hx =>
  .inr ⟨d, hd, List.mem_cons_of_mem _ (List.mem_append_left _ hx)⟩

lemma told_attributes (hd : F.Has d) : ∀ x ∈ d.attributes.flatMap AttributeUse.texts, Told F x :=
  fun _ hx =>
  .inr ⟨d, hd, List.mem_cons_of_mem _ (List.mem_append_right _ hx)⟩

lemma told_leafContent (hd : F.Has d) : ∀ x ∈ (leafContentOf d.facts).texts, Told F x := by
  obtain ⟨hcontent, -⟩ | ⟨-, -, hcontent, -⟩ | ⟨-, hcontent, -⟩ := leaf_cases d.facts
  · rw [hcontent]
    exact told_attributes hd
  · rw [hcontent]
    exact told_facets hd
  · rw [hcontent]
    intro x hx
    cases hx

lemma told_leafBody (hd : F.Has d) : ∀ x ∈ (leafBodyOf d.facts).texts, Told F x := by
  obtain ⟨-, hbody⟩ | ⟨-, -, -, hbody⟩ | ⟨-, -, hbody⟩ := leaf_cases d.facts
  · rw [hbody]
    exact told_attributes hd
  · rw [hbody]
    exact told_facets hd
  · rw [hbody]
    intro x hx
    cases hx

lemma told_sequence {particles : List Particle} (hd : F.Has d)
    (hps : ∀ p ∈ particles, ∀ x ∈ p.texts, Told F x) :
    ∀ x ∈ (TypeBody.sequence particles d.attributes).texts, Told F x := by
  intro x hx
  obtain hx | hx := List.mem_append.mp hx
  · obtain ⟨p, hp, hx⟩ := List.mem_flatMap.mp hx
    exact hps p hp x hx
  · exact told_attributes hd x hx

end

/-- A type that is put in, or one that was there before. -/
lemma Registry.eq_or_mem_of_mem_register {r : Registry} {t u : TypeDefinition}
    (h : u ∈ (r.register t).types) :
    u = t ∨ u ∈ r.types := by
  unfold register at h
  split at h
  · obtain ⟨old, hold, rfl⟩ := List.mem_map.mp h
    split
    · exact .inl rfl
    · exact .inr hold
  · obtain h | h := List.mem_append.mp h
    · exact .inr h
    · exact .inl (List.mem_singleton.mp h)

end SchemaLoom.Xsd
