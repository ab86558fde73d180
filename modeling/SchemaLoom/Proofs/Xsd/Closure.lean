import Mathlib.Data.List.Count
import SchemaLoom.Proofs.Profile.Document
import SchemaLoom.Proofs.Xml.Tree
import SchemaLoom.Proofs.Xsd.Census
import SchemaLoom.Proofs.Xsd.Roots
import SchemaLoom.Proofs.Xsd.Session
import SchemaLoom.Xsd.Render

/-! Schemas as documents are closed and unambiguous: every type that an element asks for is built in
or is one type of the document, and no two declarations in one place have the same name. -/
namespace SchemaLoom

/-- The bindings that an element declares itself. -/
def Xml.Node.bindings : Xml.Node → List (String × String)
  | element _ bindings _ _ => bindings
  | _ => []

namespace Xsd
open Profile (Declaration Siblings Primitive Facet AttributeUse ElementProfile Source elementTag)
open Xml (Node)

/-- The parts of a schema that define types, of either kind. -/
def typeNodes (schema : Node) : List Node :=
  schema.content.filter fun n => n.localName? == some "complexType" || n.localName? ==
    some "simpleType"

/-- Elements of a document have names, no two of them the same. -/
def NamedApart (ns : List Node) : Prop :=
  ∃ names : List String, ns.map (·.attribute? "name") = names.map some ∧ names.Nodup

/-- What refers to the type of a name: where there is a namespace, its qualifier stands in front. -/
def referenceIn (uri : Option String) (name : String) : String :=
  if uri.isSome then "tns:" ++ name else name

/-- A document that is a schema for a namespace, or for none, means one thing by every name in
it. -/
structure Closed (uri : Option String) (schema : Node) : Prop where
  roots : NamedApart (schema.childrenNamed "element")
  types : NamedApart (typeNodes schema)
  /-- The elements of a sequence have different names, at any depth. -/
  particles : ∀ n ∈ schema.walk, n.localName? = some "sequence" →
    NamedApart (n.childrenNamed "element")
  /-- What an element at any depth has for a type is built in, or refers to just one type. -/
  references : ∀ n ∈ schema.walk, n.localName? = some "element" →
    ∀ ref, n.attribute? "type" = some ref →
    IsBuiltIn ref ∨ ∃ name, ref = referenceIn uri name ∧
      ((typeNodes schema).map (·.attribute? "name")).count (some name) = 1
  /-- No type is taken for a built-in one, by its name or by what refers to it. -/
  apart : ∀ t ∈ typeNodes schema, ∀ name, t.attribute? "name" = some name →
    ¬IsBuiltIn name ∧ ¬IsBuiltIn (referenceIn uri name)
  target : schema.attribute? "targetNamespace" = uri
  qualifier : schema.bindings.lookup "tns" = uri

/-! ## Parts of a schema as nodes -/

section
variable {tag : String} {attributes : List (String × String)} {content : List Node}

@[simp] lemma localName_part : (part tag attributes content).localName? = some tag := rfl

@[simp] lemma content_part : (part tag attributes content).content = content := rfl

@[simp] lemma attribute_part (name : String) :
    (part tag attributes content).attribute? name = attributes.lookup name := by
  change ((attributes.map fun a => (⟨.plain a.1, a.2⟩ : Xml.Attribute)).find? fun a =>
    a.name.uri == none && a.name.localPart == name).map (·.value) = _
  induction attributes with
  | nil => rfl
  | cons a rest ih =>
    obtain ⟨key, value⟩ := a
    rw [List.map_cons, List.find?_cons, List.lookup_cons]
    by_cases h : key = name
    · simp [h, Xml.QName.plain]
    · have hkey : (name == key) = false := by simpa using Ne.symm h
      have hfirst : ((Xml.QName.plain key).uri == none && (Xml.QName.plain key).localPart == name) =
          false := by
        simpa [Xml.QName.plain] using h
      rw [hfirst, hkey]
      exact ih

/-- A node without elements and sequences of a schema in it, itself included. -/
def IsPlain (n : Node) : Prop :=
  ∀ m ∈ n.walk, m.localName? ≠ some "element" ∧ m.localName? ≠ some "sequence"

lemma isPlain_part (htag : tag ≠ "element" ∧ tag ≠ "sequence") (h : ∀ k ∈ content, IsPlain k) :
    IsPlain (part tag attributes content) := by
  intro m hm
  obtain rfl | ⟨k, hk, hm⟩ := Node.mem_walk_iff.mp hm
  · simpa using htag
  · exact h k hk m hm

end

/-- The parts that may stand below a type or a particle and are no types with a structure of their
own. -/
def smallParts : List String :=
  ["restriction", "simpleType", "simpleContent", "extension", "attribute", "minLength",
    "maxLength", "pattern"]

def IsSmall (n : Node) : Prop := ∀ m ∈ n.walk, ∃ name ∈ smallParts, m.localName? = some name

lemma isSmall_part {tag : String} {attributes : List (String × String)} {content : List Node}
    (htag : tag ∈ smallParts) (h : ∀ k ∈ content, IsSmall k) :
    IsSmall (part tag attributes content) := by
  intro m hm
  obtain rfl | ⟨k, hk, hm⟩ := Node.mem_walk_iff.mp hm
  · exact ⟨tag, htag, rfl⟩
  · exact h k hk m hm

lemma isSmall_restriction (base : Primitive) (facets : List Facet) :
    IsSmall (renderRestriction base facets) := by
  refine isSmall_part (by decide) fun k hk => ?_
  obtain ⟨f, -, rfl⟩ := List.mem_map.mp hk
  refine isSmall_part ?_ (by simp)
  cases f <;> simp [Facet.name, smallParts]

lemma isSmall_attribute (a : AttributeUse) : IsSmall (renderAttribute a) := by
  unfold renderAttribute
  dsimp only
  split
  · exact isSmall_part (by decide) (by simp)
  · refine isSmall_part (by decide) (List.forall_mem_singleton.mpr ?_)
    exact isSmall_part (by decide) (List.forall_mem_singleton.mpr (isSmall_restriction _ _))

lemma isSmall_extension (base : Primitive) (attributes : List AttributeUse) :
    IsSmall (renderExtension base attributes) := by
  refine isSmall_part (by decide) (List.forall_mem_singleton.mpr ?_)
  refine isSmall_part (by decide) fun k hk => ?_
  obtain ⟨a, -, rfl⟩ := List.mem_map.mp hk
  exact isSmall_attribute a

lemma IsSmall.not_named {n m : Node} (h : IsSmall n) (hm : m ∈ n.walk) {name : String}
    (hname : name ∉ smallParts) :
    m.localName? ≠ some name := by
  obtain ⟨small, hsmall, hm⟩ := h m hm
  rw [hm]
  rintro ⟨⟩
  exact hname hsmall

lemma IsSmall.isPlain {n : Node} (h : IsSmall n) : IsPlain n := fun _ hm =>
  ⟨h.not_named hm (by decide), h.not_named hm (by decide)⟩

/-! ## Particles -/

@[simp] lemma localName_particle (p : Particle) :
    (renderParticle p).localName? = some "element" := by
  unfold renderParticle
  cases p.content <;> rfl

@[simp] lemma name_particle (p : Particle) :
    (renderParticle p).attribute? "name" = some p.name := by
  unfold renderParticle
  cases p.content <;> simp

/-- A particle has a type by name unless it carries one with it. -/
lemma type_particle {p : Particle} {ref : String}
    (h : (renderParticle p).attribute? "type" = some ref) :
    p.content = .named ref ∨ ∃ primitive, p.content = .builtin primitive ∧
    ref = primitive.reference := by
  unfold renderParticle at h
  cases hc : p.content with
  | named reference =>
    simp [hc, List.lookup_cons] at h
    exact .inl (h ▸ rfl)
  | builtin primitive =>
    simp [hc, List.lookup_cons] at h
    exact .inr ⟨primitive, rfl, h.symm⟩
  | restricted facets => simp [hc, List.lookup_cons] at h
  | extended base attributes => simp [hc, List.lookup_cons] at h

lemma isPlain_below_particle {p : Particle} {k : Node} (hk : k ∈ (renderParticle p).content) :
    IsPlain k := by
  unfold renderParticle at hk
  cases hc : p.content with
  | named reference => simp [hc] at hk
  | builtin primitive => simp [hc] at hk
  | restricted facets =>
    simp only [hc, content_part, List.mem_singleton] at hk
    subst hk
    exact isPlain_part (by decide) (List.forall_mem_singleton.mpr (isSmall_restriction _ _).isPlain)
  | extended base attributes =>
    simp only [hc, content_part, List.mem_singleton] at hk
    subst hk
    exact isPlain_part (by decide) (List.forall_mem_singleton.mpr (isSmall_extension _ _).isPlain)

/-! ## Types and the whole -/

@[simp] lemma name_type (t : TypeDefinition) : t.render.attribute? "name" = some t.name := by
  unfold TypeDefinition.render TypeBody.render
  cases t.body <;> simp

lemma localName_type (t : TypeDefinition) :
    t.render.localName? = some "complexType" ∨ t.render.localName? = some "simpleType" := by
  unfold TypeDefinition.render TypeBody.render
  cases t.body <;> simp

/-- The node of the sequence of some particles. -/
def sequenceNode (particles : List Particle) : Node :=
  part "sequence" [] (particles.map renderParticle)

lemma childrenNamed_sequence (particles : List Particle) :
    (sequenceNode particles).childrenNamed "element" = particles.map renderParticle := by
  rw [Node.childrenNamed, sequenceNode, content_part, List.filter_eq_self]
  intro n hn
  obtain ⟨p, -, rfl⟩ := List.mem_map.mp hn
  simp

/-- The elements and sequences in a type are the sequence of its body and the particles of that. -/
lemma mem_walk_type {t : TypeDefinition} {m : Node} (hm : m ∈ t.render.walk)
    (hname : m.localName? = some "element" ∨ m.localName? = some "sequence") :
    ∃ particles attributes, t.body = .sequence particles attributes ∧
      (m = sequenceNode particles ∨ ∃ p ∈ particles, m = renderParticle p) := by
  have hplain {k : Node} (hk : IsPlain k) (hmk : m ∈ k.walk) : False :=
    hname.elim (hk m hmk).1 (hk m hmk).2
  obtain rfl | ⟨k, hk, hm⟩ := Node.mem_walk_iff.mp hm
  · obtain h | h := localName_type t
    · simp [h] at hname
    · simp [h] at hname
  unfold TypeDefinition.render TypeBody.render at hk
  cases hb : t.body with
  | extended base attributes =>
    simp only [hb, content_part, List.mem_singleton] at hk
    exact (hplain (hk ▸ (isSmall_extension _ _).isPlain) hm).elim
  | restricted facets =>
    simp only [hb, content_part, List.mem_singleton] at hk
    exact (hplain (hk ▸ (isSmall_restriction _ _).isPlain) hm).elim
  | sequence particles attributes =>
    refine ⟨particles, attributes, rfl, ?_⟩
    simp only [hb, content_part, List.mem_cons, List.mem_map] at hk
    obtain rfl | ⟨a, -, rfl⟩ := hk
    · obtain rfl | ⟨k, hk, hm⟩ := Node.mem_walk_iff.mp hm
      · exact .inl rfl
      · obtain ⟨p, hp, rfl⟩ := List.mem_map.mp hk
        obtain rfl | ⟨k, hk, hm⟩ := Node.mem_walk_iff.mp hm
        · exact .inr ⟨p, hp, rfl⟩
        · exact (hplain (isPlain_below_particle hk) hm).elim
    · exact (hplain (isSmall_attribute a).isPlain hm).elim

section
variable (schema : Schema)

lemma content_render : schema.render.content =
    schema.roots.map (fun r => renderRoot r.1 r.2) ++ schema.types.map TypeDefinition.render := by
  unfold Schema.render
  cases schema.uri <;> rfl

lemma roots_render :
    schema.render.childrenNamed "element" = schema.roots.map fun r => renderRoot r.1 r.2 := by
  rw [Node.childrenNamed, content_render, List.filter_append, List.filter_eq_self.mpr,
    List.filter_eq_nil_iff.mpr, List.append_nil]
  · intro n hn
    obtain ⟨t, -, rfl⟩ := List.mem_map.mp hn
    obtain h | h := localName_type t
    · simp [h]
    · simp [h]
  · intro n hn
    obtain ⟨r, -, rfl⟩ := List.mem_map.mp hn
    simp [renderRoot]

lemma types_render : typeNodes schema.render = schema.types.map TypeDefinition.render := by
  rw [typeNodes, content_render, List.filter_append, List.filter_eq_nil_iff.mpr,
    List.filter_eq_self.mpr, List.nil_append]
  · intro n hn
    obtain ⟨t, -, rfl⟩ := List.mem_map.mp hn
    simpa using localName_type t
  · intro n hn
    obtain ⟨r, -, rfl⟩ := List.mem_map.mp hn
    simp [renderRoot]

lemma names_types_render :
    (typeNodes schema.render).map (·.attribute? "name") =
    (schema.types.map TypeDefinition.name).map some := by
  simp [types_render, Function.comp_def]

lemma localName_render : schema.render.localName? = some "schema" := by
  unfold Schema.render
  cases schema.uri <;> rfl

/-- A node of a schema is the schema, a root of it, or stands in a type. -/
lemma mem_walk_schema {schema : Schema} {m : Node} (hm : m ∈ schema.render.walk) :
    m = schema.render ∨
    (∃ r ∈ schema.roots, m = renderRoot r.1 r.2) ∨ ∃ t ∈ schema.types, m ∈ t.render.walk := by
  obtain rfl | ⟨k, hk, hm⟩ := Node.mem_walk_iff.mp hm
  · exact .inl rfl
  rw [content_render] at hk
  obtain hk | hk := List.mem_append.mp hk
  · obtain ⟨r, hr, rfl⟩ := List.mem_map.mp hk
    obtain rfl | ⟨k, hk, -⟩ := Node.mem_walk_iff.mp hm
    · exact .inr (.inl ⟨r, hr, rfl⟩)
    · simp [renderRoot] at hk
  · obtain ⟨t, ht, rfl⟩ := List.mem_map.mp hk
    exact .inr (.inr ⟨t, ht, hm⟩)

/-- The elements and sequences of a schema are its roots and those of its types. -/
lemma mem_walk_render {schema : Schema} {m : Node} (hm : m ∈ schema.render.walk)
    (hname : m.localName? = some "element" ∨ m.localName? = some "sequence") :
    (∃ r ∈ schema.roots, m = renderRoot r.1 r.2) ∨ ∃ t ∈ schema.types, ∃ particles attributes,
      t.body = .sequence particles attributes ∧
        (m = sequenceNode particles ∨ ∃ p ∈ particles, m = renderParticle p) := by
  obtain rfl | ⟨r, hr, rfl⟩ | ⟨t, ht, hm⟩ := mem_walk_schema hm
  · simp [localName_render] at hname
  · exact .inl ⟨r, hr, rfl⟩
  · exact .inr ⟨t, ht, mem_walk_type hm hname⟩

end

/-! ## Schemas of profiles -/

lemma qualify_eq_referenceIn {uri : Option String} {name : String} (h : IsBare name) :
    qualify uri.isSome name = referenceIn uri name := qualify_of_isBare h _

lemma not_isBuiltIn {name : String} (h : IsBare name) (uri : Option String) :
    ¬IsBuiltIn name ∧ ¬IsBuiltIn (referenceIn uri name) := by
  constructor
  · rintro ⟨p, hp⟩
    exact qualify_ne_reference h false p hp
  · rintro ⟨p, hp⟩
    rw [← qualify_eq_referenceIn h] at hp
    exact qualify_ne_reference h _ p hp

lemma leafContentOf_ne_named (f : Profile.Facts) (ref : String) : leafContentOf f ≠ .named ref := by
  obtain ⟨h, -⟩ | ⟨-, -, h, -⟩ | ⟨-, h, -⟩ := leaf_cases f <;> simp [h]

/-- A reference leads to one type of a schema. -/
def RefersOnce (schema : Schema) (ref : String) : Prop :=
  ∃ name, ref = referenceIn schema.uri name ∧
    ((typeNodes schema.render).map (·.attribute? "name")).count (some name) = 1

section
variable {s : Settings} {p : ElementProfile} {schema : Schema} (hc : Compiled s p schema)
include hc

namespace Compiled

lemma refersOnce {t : TypeDefinition} (ht : t ∈ schema.types) :
    RefersOnce schema (qualify schema.uri.isSome t.name) := by
  refine ⟨t.name, qualify_eq_referenceIn (hc.built.isBare ht), ?_⟩
  rw [names_types_render, List.count_map_of_injective _ _ fun _ _ => Option.some.inj]
  exact List.count_eq_one_of_mem hc.built.names_nodup (List.mem_map_of_mem ht)

/-- The particles of a sequence are those of the groups of a declaration. -/
lemma particles_fit {t : TypeDefinition} (ht : t ∈ schema.types) {particles : List Particle}
    {attributes : List AttributeUse} (hb : t.body = .sequence particles attributes) :
    ∃ d : Declaration, List.Forall₂ (ParticleFits schema.uri.isSome s schema.types)
    d.groups particles := by
  obtain ⟨i, hi⟩ := List.mem_iff_getElem?.mp ht
  obtain ⟨d, -, -, hfits⟩ := hc.built.described hi
  have hbody := hfits.mono (List.take_subset i schema.types)
  rw [hb] at hbody
  exact ⟨d, hbody.particles⟩

lemma namedApart_roots : NamedApart (schema.render.childrenNamed "element") := by
  have hnames := map_eq_map_of_forall₂ (f := Siblings.name) (k := Prod.fst)
    (hc.roots.imp fun _ _ hr => hr.name)
  refine ⟨_, ?_, Siblings.nodup_names_byName Declaration.name p.roots⟩
  rw [roots_render, ← hnames]
  simp [renderRoot, Function.comp_def]

lemma namedApart_particles {n : Node} (hn : n ∈ schema.render.walk)
    (hname : n.localName? = some "sequence") :
    NamedApart (n.childrenNamed "element") := by
  obtain ⟨r, -, rfl⟩ | ⟨t, ht, particles, attributes, hb, rfl | ⟨q, -, rfl⟩⟩ :=
    mem_walk_render hn (.inr hname)
  · simp [renderRoot] at hname
  · obtain ⟨d, hfits⟩ := hc.particles_fit ht hb
    have hnames := map_eq_map_of_forall₂ (f := Siblings.name) (k := Particle.name)
      (hfits.imp fun _ _ hq => hq.name)
    refine ⟨_, ?_, d.nodup_group_names⟩
    rw [childrenNamed_sequence, ← hnames]
    simp [Function.comp_def]
  · simp at hname

/-- What a particle has for a type by name is built in or a type of the schema. -/
lemma refers_particle {t : TypeDefinition} (ht : t ∈ schema.types) {particles : List Particle}
    {attributes : List AttributeUse} (hb : t.body = .sequence particles attributes) {q : Particle}
    (hq : q ∈ particles) {ref : String} (href : (renderParticle q).attribute? "type" = some ref) :
    IsBuiltIn ref ∨ RefersOnce schema ref := by
  obtain hcontent | ⟨primitive, -, rfl⟩ := type_particle href
  · obtain ⟨d, hfits⟩ := hc.particles_fit ht hb
    obtain ⟨g, -, hg⟩ := exists_of_mem_right hfits hq
    have hfit := hg.content
    rw [hcontent] at hfit
    generalize hnamed : Content.named ref = content at hfit
    cases hfit with
    | named hne ht hdigest => exact .inr (Content.named.inj hnamed ▸ hc.refersOnce ht)
    | leaf hnil => exact absurd hnamed.symm (leafContentOf_ne_named _ _)
  · exact .inl ⟨primitive, rfl⟩

lemma refers {n : Node} (hn : n ∈ schema.render.walk)
    (hname : n.localName? = some "element") {ref : String} (href : n.attribute? "type" = some ref) :
    IsBuiltIn ref ∨ RefersOnce schema ref := by
  obtain ⟨r, hr, rfl⟩ | ⟨t, ht, particles, attributes, hb, rfl | ⟨q, hq, rfl⟩⟩ :=
    mem_walk_render hn (.inl hname)
  · obtain ⟨g, -, hfits⟩ := exists_of_mem_right hc.roots hr
    obtain ⟨t, ht, htype, -⟩ := hfits.type
    obtain rfl : r.2 = ref := by simpa [renderRoot, List.lookup_cons] using href
    exact .inr (htype ▸ hc.refersOnce ht)
  · simp [sequenceNode] at hname
  · exact hc.refers_particle ht hb hq href

end Compiled
end

/-- The schema of a profile is closed and unambiguous, whatever names the profile gives to its
elements. -/
theorem closed_of_compile {s : Settings} {document : Node} {source : Source} {schema : Schema}
    (hdoc : Source.ofDocument document = .ok source)
    (hs : s.Grounded (.ofRoots source.profile.roots)) (h : compile s source.profile = .ok schema) :
    Closed source.uri schema.render := by
  have hc := Compiled.of_grounded hs (Profile.uri_ne_empty hdoc) h
  have huri : schema.uri = source.uri := hc.uri
  rw [← huri]
  refine ⟨hc.namedApart_roots, ⟨_, names_types_render schema, hc.built.names_nodup⟩,
    fun n hn => hc.namedApart_particles hn, fun n hn hname ref => hc.refers hn hname, ?_, ?_, ?_⟩
  · intro n hn name hname
    rw [types_render] at hn
    obtain ⟨t, ht, rfl⟩ := List.mem_map.mp hn
    obtain rfl : t.name = name := by simpa using hname
    exact not_isBuiltIn (hc.built.isBare ht) _
  · unfold Schema.render
    cases schema.uri <;> rfl
  · unfold Schema.render
    cases schema.uri <;> rfl

/-- Digests that run in a circle leave a reference without a type: the type of the element around
takes the place of the one that it refers to. -/
example : (compile ⟨.permissive, true, fun _ => ""⟩
    ⟨none, [.mk ⟨"a", .string, [], ⟨1, .finite 1⟩, []⟩
      [.mk ⟨"b", .string, [], ⟨1, .finite 1⟩, []⟩ [leaf "c"]]]⟩).toOption.map
        (fun schema => schema.types.map fun t => (t.name, t.body.references)) =
    some [("AType", ["BType"])] := by decide +kernel

def itemLookalike : Node := .element (.plain elementTag) [] [⟨.plain "name", "xs:item"⟩] [keyNode]

def orderLookalike : Node :=
  .element (.plain elementTag) [] [⟨.plain "name", "tns:order"⟩] [itemLookalike]

def amountLookalike : Node :=
  .element (.plain elementTag) [] [⟨.plain "name", "Tns:order"⟩, ⟨.plain "dataType", "number"⟩] []

/-- A profile whose names look like references, two of which ask for types of one name. -/
def lookalikes : Source :=
  ⟨some "urn:trade", .element (.plain "DataElements") [] [] [orderLookalike, amountLookalike]⟩

def lookalikesDocument : Node :=
  .element (.plain "XMLProfile") [] [⟨.plain "namespace", "urn:trade"⟩] [lookalikes.holder]

def lookalikeText : String :=
  "\x7b\"attributes\":[],\"children\":[[\"xs:item\",1,1,\"" ++ keyedDigest ++
    "\"]],\"facets\":[],\"order\":[\"xs:item\"],\"type\":\"xs:string\"\x7d"

def lookalikeDigest : String := "dea57bf02f610935b009ab140b35feb2dae400a9e752ab33daa93043695c24d2"

lemma sha256_lookalikeText : Digest.sha256 lookalikeText = lookalikeDigest := by decide +kernel

def lookalikesTable : List (String × String) :=
  [(leafText, leafDigest), (decimalText, decimalDigest), (keyedText, keyedDigest),
    (lookalikeText, lookalikeDigest)]

lemma digest_lookalikesTable :
    ∀ e ∈ lookalikesTable, (Settings.standard .permissive true).digest e.1 = e.2 := by
  simpa [lookalikesTable, Settings.standard] using
    ⟨sha256_leafText, sha256_decimalText, sha256_keyedText, sha256_lookalikeText⟩

lemma grounded_lookalikes :
    (Settings.standard .permissive true).Grounded (.ofRoots lookalikes.profile.roots) := by
  apply Settings.NoCollision.grounded
  exact Settings.noCollision_of_table lookalikesTable digest_lookalikesTable (by decide)
    (by decide +kernel)

lemma roots_compile_lookalikes :
    (compile (.standard .permissive true) lookalikes.profile).toOption.map
    Schema.roots = some [("tns:order", "tns:Tns:orderType"),
    ("Tns:order", "tns:Tns:orderType1")] := by
  rw [← Settings.digest_table lookalikesTable digest_lookalikesTable]
  decide +kernel

lemma ofDocument_lookalikes : Source.ofDocument lookalikesDocument = .ok lookalikes := by
  have huri : (Profile.filled? lookalikesDocument ["namespace"]).map Text.strip =
      some "urn:trade" := by
    decide +kernel
  change Except.ok (⟨(Profile.filled? lookalikesDocument ["namespace"]).map Text.strip, _⟩ :
    Source) = _
  rw [huri]
  rfl

/-- The references are qualified although the names of the elements begin with a qualifier. -/
theorem lookalikes_closed : ∃ schema, Source.ofDocument lookalikesDocument = .ok lookalikes ∧
    compile (.standard .permissive true) lookalikes.profile = .ok schema ∧
    schema.roots = [("tns:order", "tns:Tns:orderType"), ("Tns:order", "tns:Tns:orderType1")] ∧
    Closed (some "urn:trade") schema.render := by
  obtain ⟨schema, hschema, hroots⟩ := Option.map_eq_some_iff.mp roots_compile_lookalikes
  have hcompile := eq_ok_of_toOption hschema
  exact ⟨schema, ofDocument_lookalikes, hcompile, hroots,
    closed_of_compile ofDocument_lookalikes grounded_lookalikes hcompile⟩

end Xsd
end SchemaLoom
