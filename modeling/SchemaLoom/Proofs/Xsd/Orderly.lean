import SchemaLoom.Proofs.Xsd.Attributes
import SchemaLoom.Proofs.Xsd.Census
import SchemaLoom.Proofs.Xsd.Reading
import SchemaLoom.Proofs.Xsd.Vetting

/-! Schemas in order: their names are plain and different in each place, their references lead to
types, and their lengths and bounds are numbers in order, up to some limit. Whether attributes of
one type have different names is left open. The schema of a profile is in order where the names and
the numbers of the profile are. -/
namespace SchemaLoom.Xsd
open Profile (Declaration Siblings Forest Source ElementProfile Primitive Facet AttributeUse Range)
open Xml (Node)

section
variable (limit : Nat)

/-- The least length is not above the greatest one, and both are within the limit. -/
structure LengthsInOrder (facets : List Facet) : Prop where
  ordered : ∀ least most, .minLength least ∈ facets → .maxLength most ∈ facets → least ≤ most
  counted : ∀ n, .minLength n ∈ facets ∨ .maxLength n ∈ facets → n ≤ limit

/-- Each length is told once, and no pattern is. -/
structure FacetsInOrder (facets : List Facet) : Prop where
  patternless : Patternless facets
  once : (facets.map Facet.name).Nodup
  lengths : LengthsInOrder limit facets

/-- The name of an attribute is not that of bindings, and lengths are told of text only. -/
structure UseInOrder (a : AttributeUse) : Prop where
  name : Xml.isPlainNameText a.name
  unbound : a.name ≠ "xmlns"
  text : a.facets = [] ∨ a.primitive = .string
  facets : FacetsInOrder limit a.facets

/-- The ends of a range are within the limit. -/
structure Counted (r : Range) : Prop where
  lower : r.lower ≤ limit
  upper : ∀ most, r.upper = .finite most → most ≤ limit

variable (schema : Schema)

inductive Content.InOrder : Content → Prop
  | named {t : TypeDefinition} (ht : t ∈ schema.types) :
      InOrder (.named (qualify schema.uri.isSome t.name))
  | builtin (primitive : Primitive) : InOrder (.builtin primitive)
  | restricted {facets : List Facet} (h : FacetsInOrder limit facets) : InOrder (.restricted facets)
  | extended (base : Primitive) {uses : List AttributeUse} (h : ∀ a ∈ uses, UseInOrder limit a) :
      InOrder (.extended base uses)

structure Particle.InOrder (p : Particle) : Prop where
  name : Xml.isPlainNameText p.name
  proper : p.range.Proper
  counted : Counted limit p.range
  content : p.content.InOrder limit schema

inductive TypeBody.InOrder : TypeBody → Prop
  | sequence {particles : List Particle} {uses : List AttributeUse}
      (names : (particles.map Particle.name).Nodup)
      (hparticles : ∀ p ∈ particles, p.InOrder limit schema)
      (huses : ∀ a ∈ uses, UseInOrder limit a) :
      InOrder (.sequence particles uses)
  | extended (base : Primitive) {uses : List AttributeUse} (h : ∀ a ∈ uses, UseInOrder limit a) :
      InOrder (.extended base uses)
  | restricted {facets : List Facet} (h : FacetsInOrder limit facets) : InOrder (.restricted facets)

/-- All is in order with a schema, except that attributes of one type may have one name. -/
structure Schema.InOrder : Prop where
  legal : schema.IsLegal
  free : isReserved schema.uri = false
  other : schema.uri ≠ some schemaUri
  rootNames : (schema.roots.map Prod.fst).Nodup
  typeNames : (schema.types.map TypeDefinition.name).Nodup
  roots : ∀ r ∈ schema.roots, Xml.isPlainNameText r.1 ∧
    ∃ t ∈ schema.types, r.2 = qualify schema.uri.isSome t.name
  types : ∀ t ∈ schema.types, Xml.isPlainNameText t.name ∧ t.body.InOrder limit schema

end

/-! ## Declarations -/

/-- A declaration with plain names and without patterns. -/
structure IsPlainDeclaration (d : Declaration) : Prop where
  name : Xml.isPlainNameText d.name
  uses : ∀ a ∈ d.attributes, IsPlainUse a
  facets : Patternless d.facets

/-- The numbers of a declaration are in order, and no attribute takes the name of bindings. Lengths
of its own are told where it has neither attributes nor elements in it. -/
structure IsMeasured (limit : Nat) (d : Declaration) : Prop where
  unbound : ∀ a ∈ d.attributes, a.name ≠ "xmlns"
  uses : ∀ a ∈ d.attributes, LengthsInOrder limit a.facets
  own : d.attributes = [] → d.children = [] → LengthsInOrder limit d.facets
  groups : ∀ g ∈ d.groups, Counted limit (g.range Declaration.range)

/-- Facets as they are read: each is told once, and lengths are told of text only. -/
structure Drawn (primitive : Primitive) (facets : List Facet) : Prop where
  once : (facets.map Facet.name).Nodup
  text : primitive = .string ∨ ∀ f ∈ facets, ∃ text, f = .pattern text

lemma drawn_facetsOf (n : Node) (p : Primitive) : Drawn p (Profile.facetsOf n p) := by
  unfold Profile.facetsOf
  generalize Profile.length? n "minLength" = least
  generalize Profile.length? n "maxLength" = most
  generalize Profile.filled? n ["pattern"] = pattern
  by_cases hp : p = .string
  · refine ⟨?_, .inl hp⟩
    cases least <;> cases most <;> cases pattern <;> simp [hp, Facet.name]
  · refine ⟨?_, .inr ?_⟩
    all_goals cases pattern <;> simp [hp]

section
variable {limit : Nat} {primitive : Primitive} {facets : List Facet}

lemma Drawn.inOrder (h : Drawn primitive facets) (hpattern : Patternless facets)
    (hlengths : LengthsInOrder limit facets) : FacetsInOrder limit facets :=
  ⟨hpattern, h.once, hlengths⟩

lemma Drawn.eq_nil_or_string (h : Drawn primitive facets) (hpattern : Patternless facets) :
    facets = [] ∨ primitive = .string := by
  refine h.text.symm.imp_left fun hall => List.eq_nil_iff_forall_not_mem.mpr fun f hf => ?_
  obtain ⟨text, rfl⟩ := hall f hf
  exact hpattern text hf

end

/-- The facts of a declaration as they are read from a document. -/
structure IsRead (d : Declaration) : Prop where
  uses : ∀ a ∈ d.attributes, Drawn a.primitive a.facets
  facets : Drawn d.primitive d.facets
  range : d.range.Proper

/-- All declarations of a profile are read. -/
lemma isRead_profile {document : Node} {source : Source}
    (hdoc : Source.ofDocument document = .ok source) {d : Declaration}
    (hd : (Forest.ofRoots source.profile.roots).Has d) : IsRead d := by
  obtain ⟨n, -, rfl⟩ := Profile.readFrom_profile hdoc d hd
  refine ⟨?_, ?_, ?_⟩
  · simp only [Declaration.attributes, Profile.facts_ofNode, Profile.Facts.ofNode]
    rw [List.forall_mem_map]
    intro m _
    simp only [AttributeUse.ofNode]
    exact drawn_facetsOf m _
  · simp only [Declaration.primitive, Declaration.facets, Profile.facts_ofNode,
      Profile.Facts.ofNode]
    exact drawn_facetsOf n _
  · simp only [Declaration.range, Profile.facts_ofNode, Profile.Facts.ofNode]
    exact Profile.proper_rangeOf n

/-- What a declaration gives to the schema is in order. -/
structure IsRegular (limit : Nat) (d : Declaration) : Prop where
  name : Xml.isPlainNameText d.name
  uses : ∀ a ∈ d.attributes, UseInOrder limit a
  own : d.attributes = [] → d.children = [] → FacetsInOrder limit d.facets
  groups : ∀ g ∈ d.groups, Counted limit (g.range Declaration.range)

lemma IsMeasured.isRegular {limit : Nat} {d : Declaration} (h : IsMeasured limit d)
    (hplain : IsPlainDeclaration d) (hread : IsRead d) : IsRegular limit d := by
  refine ⟨hplain.name, fun a ha => ?_, fun hnone hnil => ?_, h.groups⟩
  · obtain ⟨hname, hpattern⟩ := hplain.uses a ha
    have hdrawn := hread.uses a ha
    exact ⟨hname, h.unbound a ha, hdrawn.eq_nil_or_string hpattern,
      hdrawn.inOrder hpattern (h.uses a ha)⟩
  · exact hread.facets.inOrder hplain.facets (h.own hnone hnil)

namespace IsRegular
variable {limit : Nat} {schema : Schema} {d : Declaration} (h : IsRegular limit d)
include h

lemma leafContent (hnil : d.children = []) : (leafContentOf d.facts).InOrder limit schema := by
  obtain ⟨heq, -⟩ | ⟨hnone, -, heq, -⟩ | ⟨-, heq, -⟩ := leaf_cases d.facts
  · exact heq ▸ .extended _ h.uses
  · exact heq ▸ .restricted (h.own hnone hnil)
  · exact heq ▸ .builtin _

lemma leafBody (hnil : d.children = []) : (leafBodyOf d.facts).InOrder limit schema := by
  obtain ⟨-, heq⟩ | ⟨hnone, -, -, heq⟩ | ⟨-, -, heq⟩ := leaf_cases d.facts
  · exact heq ▸ .extended _ h.uses
  · exact heq ▸ .restricted (h.own hnone hnil)
  · exact heq ▸ .extended _ (by simp)

end IsRegular

/-! ## Schemas of profiles -/

section
variable {s : Settings} {p : ElementProfile} {schema : Schema}

/-- The name of a type is that of a declaration, with an end to it. -/
lemma exists_name_of_type (hs : s.NoCollision (.ofRoots p.roots)) (h : compile s p = .ok schema)
    {t : TypeDefinition} (ht : t ∈ schema.types) :
    ∃ d, (Forest.ofRoots p.roots).Has d ∧
    ∃ k, t.name = Registry.numbered (typeNameBase d.name) k := by
  obtain ⟨r, htypes, hledger⟩ := ledger_of_draft hs ((compile_eq_ok_iff hs).mp h).2
  have hmem := List.mem_map_of_mem (f := fun t => (t.digest, t.name)) (htypes ▸ ht)
  rw [hledger.types] at hmem
  obtain ⟨v, hv, hname⟩ := List.mem_map.mp hmem
  have hvisit := hledger.sub (List.mem_filter.mp hv).1
  exact ⟨v.2, ⟨v.1, Profile.at_of_mem_preorder hvisit⟩, _, (Prod.mk.inj hname).2.symm⟩

/-- A particle that refers to something refers to a type of the schema. -/
lemma Compiled.exists_type (hc : Compiled s p schema) {t : TypeDefinition} (ht : t ∈ schema.types)
    {particles : List Particle} {uses : List AttributeUse}
    (hbody : t.body = .sequence particles uses) {q : Particle} (hq : q ∈ particles)
    {reference : String} (hcontent : q.content = .named reference) :
    ∃ u ∈ schema.types, reference = qualify schema.uri.isSome u.name := by
  obtain ⟨d, hfits⟩ := hc.particles_fit ht hbody
  obtain ⟨g, -, hg⟩ := exists_of_mem_right hfits hq
  have hfit := hg.content
  rw [hcontent] at hfit
  generalize hnamed : Content.named reference = content at hfit
  cases hfit with
  | named hne hu hdigest => exact ⟨_, hu, Content.named.inj hnamed⟩
  | leaf hnil => exact absurd hnamed.symm (leafContentOf_ne_named _ _)

lemma Compiled.nodup_rootNames (hc : Compiled s p schema) : (schema.roots.map Prod.fst).Nodup := by
  have hnames := map_eq_map_of_forall₂ (f := Siblings.name) (k := Prod.fst)
    (hc.roots.imp fun _ _ hr => hr.name)
  exact hnames ▸ Siblings.nodup_names_byName Declaration.name p.roots

variable {limit : Nat} (hread : ∀ d, (Forest.ofRoots p.roots).Has d → IsRead d)
  (hregular : ∀ d, Counts p.roots d → IsRegular limit d)
include hread hregular

/-- A particle that shows a group is in order if what it refers to is there. -/
lemma Particle.Shows.inOrder {d : Declaration} (hd : Counts p.roots d) {g : Siblings Declaration}
    (hg : g ∈ d.groups) {q : Particle} (hshows : q.Shows g)
    (hrefers : ∀ reference, q.content = .named reference →
      ∃ t ∈ schema.types, reference = qualify schema.uri.isSome t.name) :
    q.InOrder limit schema := by
  have hfirst := hregular g.first (hd.first hg)
  have hname : g.first.name = g.name := Siblings.name_first hg
  refine ⟨?_, ?_, hshows.range ▸ (hregular d hd).groups g hg, ?_⟩
  · rw [hshows.name, ← hname]
    exact hfirst.name
  · rw [hshows.range]
    exact Siblings.proper_range fun m hm =>
      (hread m (hd.has.child (Siblings.mem_of_mem_members hg hm))).range
  · have hcontent := hshows.content
    generalize q.content = content at hcontent hrefers
    cases hcontent with
    | named hne reference =>
      obtain ⟨t, ht, rfl⟩ := hrefers reference rfl
      exact .named ht
    | leaf hnil => exact hfirst.leafContent hnil

lemma Compiled.body_inOrder (hc : Compiled s p schema) (h : compile s p = .ok schema)
    {t : TypeDefinition} (ht : t ∈ schema.types) : t.body.InOrder limit schema := by
  obtain ⟨d, hd, hshows⟩ := traced_of_compile h t ht
  generalize hbody : t.body = body at hshows
  cases hshows with
  | leaf hnil => exact (hregular d hd).leafBody hnil
  | sequence hne hall =>
    have hnames := map_eq_map_of_forall₂ (f := Siblings.name) (k := Particle.name)
      (hall.imp fun _ _ hq => hq.name)
    refine .sequence (hnames ▸ d.nodup_group_names) (fun q hq => ?_) (hregular d hd).uses
    obtain ⟨g, hg, hqg⟩ := exists_of_mem_right hall hq
    exact hqg.inOrder hread hregular hd hg fun reference => hc.exists_type ht hbody hq

/-- The schema of a profile with plain names and numbers in order is in order. -/
theorem Compiled.inOrder (hc : Compiled s p schema) (hs : s.NoCollision (.ofRoots p.roots))
    (h : compile s p = .ok schema) (hlegal : schema.IsLegal) (hfree : isReserved schema.uri = false)
    (hother : schema.uri ≠ some schemaUri)
    (hnames : ∀ d, (Forest.ofRoots p.roots).Has d → Xml.isPlainNameText d.name) :
    schema.InOrder limit := by
  refine ⟨hlegal, hfree, hother, hc.nodup_rootNames, hc.built.names_nodup, fun r hr => ?_,
    fun t ht => ⟨?_, hc.body_inOrder hread hregular h ht⟩⟩
  · obtain ⟨g, hg, hfits⟩ := exists_of_mem_right hc.roots hr
    obtain ⟨t, ht, htype, -⟩ := hfits.type
    have hname : g.first.name = g.name := Siblings.name_first hg
    refine ⟨?_, t, ht, htype⟩
    rw [hfits.name, ← hname]
    exact hnames _ (Forest.has_of_mem (Siblings.first_mem hg))
  · obtain ⟨d, hd, k, hname⟩ := exists_name_of_type hs h ht
    rw [hname]
    exact isPlainNameText_numbered (isPlainNameText_typeNameBase (hnames d hd)) k

end
end SchemaLoom.Xsd
