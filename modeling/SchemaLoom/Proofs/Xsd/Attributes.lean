import SchemaLoom.Proofs.Xsd.Closure
import SchemaLoom.Proofs.Xsd.Provenance

/-! The attributes that the complex types of a schema declare. They are those of declarations, one
by one, so that two of them have one name just where a declaration has two attributes of one
name. -/
namespace SchemaLoom.Xsd
open Profile (Declaration Siblings Forest Primitive Facet AttributeUse ElementProfile Source)
open Xml (Node)

/-- The parts that declare the attributes of a complex type: those in it, and those in the extension
that its simple content may be. -/
def attributeParts (n : Node) : List Node :=
  n.childrenNamed "attribute" ++ (n.childrenNamed "simpleContent").flatMap fun content =>
    (content.childrenNamed "extension").flatMap (·.childrenNamed "attribute")

/-! ## Complex types as nodes -/

@[simp] lemma localName_attribute (a : AttributeUse) :
    (renderAttribute a).localName? = some "attribute" := by
  unfold renderAttribute
  dsimp only
  split <;> rfl

@[simp] lemma name_attribute (a : AttributeUse) :
    (renderAttribute a).attribute? "name" = some a.name := by
  unfold renderAttribute
  dsimp only
  split <;> simp

lemma childrenNamed_attributes {attributes : List AttributeUse} {name : String}
    (h : name ≠ "attribute") :
    (attributes.map renderAttribute).filter (·.localName? == some name) = [] := by
  rw [List.filter_eq_nil_iff]
  intro n hn
  obtain ⟨a, -, rfl⟩ := List.mem_map.mp hn
  simpa using Ne.symm h

lemma filter_attributes (attributes : List AttributeUse) :
    (attributes.map renderAttribute).filter (·.localName? == some "attribute") =
    attributes.map renderAttribute := by
  rw [List.filter_eq_self]
  intro n hn
  obtain ⟨a, -, rfl⟩ := List.mem_map.mp hn
  simp

/-- The complex type of an element with text. -/
def extensionNode (attributes : List (String × String)) (base : Primitive)
    (uses : List AttributeUse) : Node :=
  part "complexType" attributes [renderExtension base uses]

lemma attributeParts_extension (attributes : List (String × String)) (base : Primitive)
    (uses : List AttributeUse) :
    attributeParts (extensionNode attributes base uses) = uses.map renderAttribute := by
  change [] ++ ((uses.map renderAttribute).filter _ ++ [] ++ []) = _
  rw [filter_attributes]
  simp

lemma attributeParts_sequence (attributes : List (String × String)) (particles : List Particle)
    (uses : List AttributeUse) :
    attributeParts (part "complexType" attributes
    (sequenceNode particles :: uses.map renderAttribute)) =
      uses.map renderAttribute := by
  have hparts :
      (part "complexType" attributes
      (sequenceNode particles :: uses.map renderAttribute)).childrenNamed
      "attribute" = uses.map renderAttribute := by
    change (uses.map renderAttribute).filter _ = _
    rw [filter_attributes]
  have hcontent :
      (part "complexType" attributes
      (sequenceNode particles :: uses.map renderAttribute)).childrenNamed
      "simpleContent" = [] := by
    change (uses.map renderAttribute).filter _ = _
    exact childrenNamed_attributes (by decide)
  rw [attributeParts, hparts, hcontent]
  simp

/-- The attributes that a body declares. -/
def TypeBody.uses : TypeBody → List AttributeUse
  | .sequence _ attributes => attributes
  | .extended _ attributes => attributes
  | .restricted _ => []

/-- The attributes that a content declares. -/
def Content.uses : Content → List AttributeUse
  | .extended _ attributes => attributes
  | _ => []

lemma attributeParts_type {t : TypeDefinition} :
    attributeParts t.render = t.body.uses.map renderAttribute := by
  unfold TypeDefinition.render TypeBody.render
  cases t.body with
  | sequence particles attributes => exact attributeParts_sequence _ _ _
  | extended base attributes => exact attributeParts_extension _ _ _
  | restricted facets => rfl

/-- The complex type in a particle is the one that it carries. -/
lemma eq_of_mem_walk_particle {p : Particle} {m : Node} (hm : m ∈ (renderParticle p).walk)
    (hname : m.localName? = some "complexType") :
    ∃ base uses, p.content = .extended base uses ∧ m = extensionNode [] base uses := by
  obtain rfl | ⟨k, hk, hm⟩ := Node.mem_walk_iff.mp hm
  · simp at hname
  unfold renderParticle at hk
  cases hc : p.content with
  | named reference => simp [hc] at hk
  | builtin primitive => simp [hc] at hk
  | restricted facets =>
    simp only [hc, content_part, List.mem_singleton] at hk
    subst hk
    have hsmall : IsSmall (part "simpleType" [] [renderRestriction .string facets]) :=
      isSmall_part (by decide) (List.forall_mem_singleton.mpr (isSmall_restriction _ _))
    exact absurd hname (hsmall.not_named hm (by decide))
  | extended base uses =>
    simp only [hc, content_part, List.mem_singleton] at hk
    subst hk
    obtain rfl | ⟨k, hk, hm⟩ := Node.mem_walk_iff.mp hm
    · exact ⟨base, uses, rfl, rfl⟩
    · simp only [content_part, List.mem_singleton] at hk
      exact absurd hname ((hk ▸ isSmall_extension _ _ : IsSmall k).not_named hm (by decide))

/-- The complex types of a schema are types of it and those that particles carry with them. -/
lemma mem_walk_complexType {schema : Schema} {m : Node} (hm : m ∈ schema.render.walk)
    (hname : m.localName? = some "complexType") : ∃ t ∈ schema.types, m = t.render ∨
      ∃ particles attributes, t.body = .sequence particles attributes ∧
      ∃ p ∈ particles, ∃ base uses,
        p.content = .extended base uses ∧ m = extensionNode [] base uses := by
  obtain rfl | ⟨r, -, rfl⟩ | ⟨t, ht, hm⟩ := mem_walk_schema hm
  · simp [localName_render] at hname
  · simp [renderRoot] at hname
  refine ⟨t, ht, ?_⟩
  obtain rfl | ⟨k, hk, hm⟩ := Node.mem_walk_iff.mp hm
  · exact .inl rfl
  unfold TypeDefinition.render TypeBody.render at hk
  cases hb : t.body with
  | extended base attributes =>
    simp only [hb, content_part, List.mem_singleton] at hk
    exact absurd hname ((hk ▸ isSmall_extension _ _ : IsSmall k).not_named hm (by decide))
  | restricted facets =>
    simp only [hb, content_part, List.mem_singleton] at hk
    exact absurd hname ((hk ▸ isSmall_restriction _ _ : IsSmall k).not_named hm (by decide))
  | sequence particles attributes =>
    refine .inr ⟨particles, attributes, rfl, ?_⟩
    simp only [hb, content_part, List.mem_cons, List.mem_map] at hk
    obtain rfl | ⟨a, -, rfl⟩ := hk
    · obtain rfl | ⟨k, hk, hm⟩ := Node.mem_walk_iff.mp hm
      · simp at hname
      obtain ⟨p, hp, rfl⟩ := List.mem_map.mp hk
      exact ⟨p, hp, eq_of_mem_walk_particle hm hname⟩
    · exact absurd hname ((isSmall_attribute a).not_named hm (by decide))

lemma mem_walk_types {schema : Schema} {t : TypeDefinition} (ht : t ∈ schema.types) :
    t.render ∈ schema.render.walk := by
  refine Node.mem_walk_iff.mpr (.inr ⟨t.render, ?_, t.render.mem_walk_self⟩)
  rw [content_render]
  exact List.mem_append_right _ (List.mem_map_of_mem ht)

/-- A type that declares attributes is complex. -/
lemma localName_type_of_uses {t : TypeDefinition} (h : t.body.uses ≠ []) :
    t.render.localName? = some "complexType" := by
  unfold TypeDefinition.render TypeBody.render
  cases hb : t.body with
  | sequence => rfl
  | extended => rfl
  | restricted => exact absurd (by rw [hb, TypeBody.uses]) h

/-- The complex type that a particle carries stands in the schema. -/
lemma mem_walk_extension {schema : Schema} {t : TypeDefinition} (ht : t ∈ schema.types)
    {particles : List Particle} {attributes : List AttributeUse}
    (hbody : t.body = .sequence particles attributes) {p : Particle} (hp : p ∈ particles)
    {base : Primitive} {uses : List AttributeUse} (hcontent : p.content = .extended base uses) :
    extensionNode [] base uses ∈ schema.render.walk := by
  have hsequence : sequenceNode particles ∈ t.render.content := by
    unfold TypeDefinition.render TypeBody.render
    rw [hbody]
    exact List.mem_cons_self
  have hextension : extensionNode [] base uses ∈ (renderParticle p).content := by
    unfold renderParticle
    rw [hcontent]
    exact List.mem_cons_self
  refine Node.mem_walk_trans (mem_walk_types ht) (Node.mem_walk_iff.mpr (.inr ⟨_, hsequence, ?_⟩))
  refine Node.mem_walk_iff.mpr (.inr ⟨renderParticle p, List.mem_map_of_mem hp, ?_⟩)
  exact Node.mem_walk_iff.mpr (.inr ⟨_, hextension, Node.mem_walk_self _⟩)

/-! ## The declarations behind them -/

lemma uses_leafBodyOf (f : Profile.Facts) : (leafBodyOf f).uses = f.attributes := by
  obtain ⟨-, h⟩ | ⟨hnone, -, -, h⟩ | ⟨hnone, -, h⟩ := leaf_cases f
  · rw [h]
    rfl
  · rw [h, hnone]
    rfl
  · rw [h, hnone]
    rfl

lemma TypeBody.Shows.uses {d : Declaration} {body : TypeBody} (h : body.Shows d) :
    body.uses = d.attributes := by
  cases h with
  | sequence hne h => rfl
  | leaf hnil => exact uses_leafBodyOf d.facts

lemma uses_leafContentOf (f : Profile.Facts) : (leafContentOf f).uses = f.attributes := by
  obtain ⟨h, -⟩ | ⟨hnone, -, h, -⟩ | ⟨hnone, h, -⟩ := leaf_cases f
  · rw [h]
    rfl
  · rw [h, hnone]
    rfl
  · rw [h, hnone]
    rfl

lemma Content.Shows.uses {d : Declaration} {base : Primitive} {uses : List AttributeUse}
    (h : (Content.extended base uses).Shows d) : uses = d.attributes := by
  generalize hcontent : Content.extended base uses = content at h
  cases h with
  | named hne reference => cases hcontent
  | leaf hnil => exact (congrArg Content.uses hcontent).trans (uses_leafContentOf d.facts)

/-- Every complex type of a schema declares the attributes of one declaration that counts, as they
are. -/
theorem exists_declaration_of_complexType {s : Settings} {p : ElementProfile} {schema : Schema}
    (h : compile s p = .ok schema) {n : Node} (hn : n ∈ schema.render.walk)
    (hname : n.localName? = some "complexType") :
    ∃ d, Counts p.roots d ∧ attributeParts n = d.attributes.map renderAttribute := by
  obtain ⟨t, ht, rfl | ⟨particles, attributes, hbody, q, hq, base, uses, hcontent, rfl⟩⟩ :=
    mem_walk_complexType hn hname
  · obtain ⟨d, hd, hshows⟩ := traced_of_compile h t ht
    exact ⟨d, hd, by rw [attributeParts_type, hshows.uses]⟩
  · obtain ⟨d, hd, hshows⟩ := traced_of_compile h t ht
    rw [hbody] at hshows
    obtain ⟨g, hg, hqg⟩ := exists_of_mem_right hshows.particles hq
    have hshown := hqg.content
    rw [hcontent] at hshown
    exact ⟨g.first, hd.first hg, by rw [attributeParts_extension, hshown.uses]⟩

section
variable {s : Settings} {p : ElementProfile} {schema : Schema}

/-- A declaration has a type in a schema that describes it. -/
def IsTyped (s : Settings) (schema : Schema) (d : Declaration) : Prop :=
  ∃ t ∈ schema.types, BodyFits schema.uri.isSome s schema.types d t.body

/-- A declaration has no elements in it, and its content is that of a particle. -/
def IsCarried (schema : Schema) (d : Declaration) : Prop :=
  d.children = [] ∧ ∃ t ∈ schema.types, ∃ particles attributes,
    t.body = .sequence particles attributes ∧
    ∃ p ∈ particles, p.content = leafContentOf d.facts

/-- Inside of a declaration that has a type, those that stand first in their groups have types where
there are elements in them, and are carried by particles where there are none. -/
lemma IsTyped.leads (hs : s.NoCollision (.ofRoots p.roots)) (hc : Compiled s p schema)
    {d e : Declaration} (hlead : d.Leads e) : (Forest.ofRoots p.roots).Has d → IsTyped s schema d →
      IsTyped s schema e ∨ IsCarried schema e := by
  have hfirst {d : Declaration} {g : Siblings Declaration} (hg : g ∈ d.groups)
      (hd : (Forest.ofRoots p.roots).Has d)
      (htyped : IsTyped s schema d) :
      g.first.children ≠ [] ∧ IsTyped s schema g.first ∨ IsCarried schema g.first := by
    obtain ⟨t, ht, hfits⟩ := htyped
    obtain ⟨particles, hbody, q, hq, hqg⟩ := hfits.exists_particle hg
    have hcontent := hqg.content
    generalize hqc : q.content = content at hcontent
    cases hcontent with
    | @named u hne hu hdigest => exact .inl ⟨hne, u, hu, hc.built.fits hs hu (hd.first hg) hdigest⟩
    | leaf hnil => exact .inr ⟨hnil, t, ht, particles, _, hbody, q, hq, hqc⟩
  induction hlead with
  | here hg => exact fun hd htyped => (hfirst hg hd htyped).imp_left And.right
  | inside hg hinner ih =>
    intro hd htyped
    obtain ⟨-, htyped⟩ | ⟨hnil, -⟩ := hfirst hg hd htyped
    · exact ih (hd.first hg) htyped
    · obtain ⟨k, hk, -⟩ := hinner.step
      rw [Declaration.groups_eq_nil.mpr hnil] at hk
      cases hk

lemma isTyped_or_isCarried (hs : s.NoCollision (.ofRoots p.roots)) (hc : Compiled s p schema)
    {d : Declaration} (hd : Counts p.roots d) : IsTyped s schema d ∨ IsCarried schema d := by
  obtain ⟨g, hg, hlead⟩ := hd
  have hhas : (Forest.ofRoots p.roots).Has g.first := Forest.has_of_mem (Siblings.first_mem hg)
  obtain ⟨root, -, hfits⟩ := exists_of_mem_left hc.roots hg
  obtain ⟨t, ht, -, hjudge⟩ := hfits.type
  have htyped : IsTyped s schema g.first :=
    ⟨t, ht, hc.built.fits hs ht hhas ((s.judgedRight _).ok _ hjudge).1⟩
  obtain rfl | hlead := hlead
  · exact .inl htyped
  · exact htyped.leads hs hc hlead hhas

/-- The attributes of every declaration that counts are declared by some complex type, as they
are. -/
theorem exists_complexType_of_declaration (hs : s.NoCollision (.ofRoots p.roots))
    (hc : Compiled s p schema) {d : Declaration} (hd : Counts p.roots d) (hne : d.attributes ≠ []) :
    ∃ n ∈ schema.render.walk, n.localName? = some "complexType" ∧
      attributeParts n = d.attributes.map renderAttribute := by
  obtain ⟨t, ht, hfits⟩ | ⟨-, t, ht, particles, attributes, hbody, q, hq, hcontent⟩ :=
    isTyped_or_isCarried hs hc hd
  · have huses : t.body.uses = d.attributes := by
      generalize t.body = body at hfits
      cases hfits with
      | sequence => rfl
      | leaf => exact uses_leafBodyOf d.facts
    have hname := localName_type_of_uses (huses.symm ▸ hne : t.body.uses ≠ [])
    exact ⟨t.render, mem_walk_types ht, hname, by rw [attributeParts_type, huses]⟩
  · have hextended : leafContentOf d.facts = .extended d.primitive d.attributes := by
      obtain ⟨h, -⟩ | ⟨hnone, -⟩ | ⟨hnone, -⟩ := leaf_cases d.facts
      · exact h
      · exact absurd hnone hne
      · exact absurd hnone hne
    exact ⟨extensionNode [] d.primitive d.attributes,
      mem_walk_extension ht hbody hq (hcontent.trans hextended), rfl,
      attributeParts_extension _ _ _⟩

end

/-- No attribute name is used twice by a declaration. -/
def AttributesApart (d : Declaration) : Prop := (d.attributes.map AttributeUse.name).Nodup

lemma namedApart_attributes (uses : List AttributeUse) :
    NamedApart (uses.map renderAttribute) ↔ (uses.map AttributeUse.name).Nodup := by
  have hnames : (uses.map renderAttribute).map (·.attribute? "name") =
      (uses.map AttributeUse.name).map some := by
    simp [Function.comp_def]
  constructor
  · rintro ⟨names, hsame, hnodup⟩
    rw [hnames] at hsame
    rwa [List.map_injective_iff.mpr (fun _ _ => Option.some.inj) hsame]
  · exact fun hnodup => ⟨_, hnames, hnodup⟩

end SchemaLoom.Xsd
