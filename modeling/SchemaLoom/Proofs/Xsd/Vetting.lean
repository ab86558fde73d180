import SchemaLoom.Proofs.Xsd.Attributes
import SchemaLoom.Proofs.Xsd.Checking

/-! The parts that schemas are made of pass the check, except that the attributes of one declaration
may have one name or take that of bindings, and that a bound may be beyond the limit. -/
namespace SchemaLoom.Xsd
open Profile (Primitive Facet AttributeUse Range)
open Xml (Node)

section
variable {d : Declared} {scope : List (String × String)} (h : Understood d scope)

lemma primitive_simple : ["string", "decimal", "integer", "date", "dateTime", "boolean"] ⊆
    builtinTypes.filter (· != "anyType") := by decide

lemma primitive_any :
    ["string", "decimal", "integer", "date", "dateTime", "boolean"] ⊆ builtinTypes := by decide

/-- No facet is a pattern. -/
def Patternless (facets : List Facet) : Prop := ∀ text, Facet.pattern text ∉ facets

lemma name_mem_facetNames (f : Facet) : f.name ∈ facetNames := by
  cases f <;> simp [Facet.name, facetNames]

lemma partsWell_facet {f : Facet} (hf : ∀ text, f ≠ .pattern text) :
    partsWell d scope "restriction" (renderFacet f) = true := by
  have hlength (n : Nat) {tag : String} (htag : tag = "minLength" ∨ tag = "maxLength") :
      partsWell d scope "restriction" (part tag [("value", Number.natText n)] []) = true := by
    have hplaced : Placed d scope "restriction" tag [("value", Number.natText n)] [] := by
      obtain rfl | rfl := htag
      · exact ⟨by change ["value"] ⊆ _; decide, follows_nil _, rfl, rfl,
          fun _ => by simp [facetWell, natural_natText]⟩
      · exact ⟨by change ["value"] ⊆ _; decide, follows_nil _, rfl, rfl,
          fun _ => by simp [facetWell, natural_natText]⟩
    have hname : tag ≠ "annotation" ∧
        namedWell (part tag [("value", Number.natText n)] []) false tag = true := by
      obtain rfl | rfl := htag
      · exact ⟨by decide, rfl⟩
      · exact ⟨by decide, rfl⟩
    exact (partsWell_once hplaced hname.1 (by simp) ⟨rfl, rfl⟩).mpr ⟨hname.2, by simp⟩
  cases f with
  | minLength n => exact hlength n (.inl rfl)
  | maxLength n => exact hlength n (.inr rfl)
  | pattern text => exact absurd rfl (hf text)

lemma follows_facets {names : List String} (h : ∀ name ∈ names, name ∈ facetNames) :
    follows [note, once ["simpleType"], often facetNames] names = true := by
  have hother : ∀ name ∈ facetNames, name ∉ note.names ∧ name ∉ (once ["simpleType"]).names := by
    decide
  rw [follows_skip fun name hname => (hother name (h name hname)).1,
    follows_skip fun name hname => (hother name (h name hname)).2]
  exact follows_often h

include h in
lemma partsWell_restriction (base : Primitive) {facets : List Facet}
    (hfacets : Patternless facets) :
    partsWell d scope "simpleType" (renderRestriction base facets) = true := by
  have hcontent :
      contentNames (part "restriction" [("base", base.reference)] (facets.map renderFacet)) =
      facets.map Facet.name := contentNames_map _ _ (fun _ => rfl) facets
  have hmem : ∀ name ∈ facets.map Facet.name, name ∈ facetNames := by
    rw [List.forall_mem_map]
    exact fun f _ => name_mem_facetNames f
  have hother : ∀ name ∈ facetNames, name ≠ "simpleType" ∧ name ≠ "attribute" := by decide
  have hplaced : Placed d scope "simpleType" "restriction" [("base", base.reference)]
      (facets.map renderFacet) := by
    refine placed_of_not_facet (by decide) (by change ["base"] ⊆ _; decide) ?_
      (h.refers_primitive primitive_simple base) ?_
    · rw [hcontent]
      exact follows_facets hmem
    · have hsimple : "simpleType" ∉ facets.map Facet.name :=
        fun hin => (hother _ (hmem _ hin)).1 rfl
      change (true !=
        (contentNames (part "restriction" [("base", base.reference)]
        (facets.map renderFacet))).contains
        "simpleType") = true
      rw [hcontent]
      simpa using hsimple
  have hnone : ∀ n ∈ facets.map renderFacet, n.localName? ≠ some "attribute" := by
    rw [List.forall_mem_map]
    intro f hf
    simpa [renderFacet] using (hother _ (name_mem_facetNames f)).2
  refine (partsWell_once hplaced (by decide) hnone ⟨rfl, rfl⟩).mpr ⟨rfl, ?_⟩
  rw [List.forall_mem_map]
  exact fun f hf => partsWell_facet fun text hp => hfacets text (hp ▸ hf)

/-- A type has a name at the top of a schema, and nowhere else. -/
inductive IsTitle : String → List (String × String) → Prop
  | top {name : String} (h : Xml.isPlainNameText name) : IsTitle "schema" [("name", name)]
  | inside {around : String} (h : (around == "schema") = false) : IsTitle around []

namespace IsTitle
variable {around tag : String} {attributes : List (String × String)} {content : List Node}
  (htitle : IsTitle around attributes) (htag : tag = "simpleType" ∨ tag = "complexType")
include htitle

lemma bounds : attributes.lookup "minOccurs" = none ∧ attributes.lookup "maxOccurs" = none := by
  cases htitle <;> exact ⟨rfl, rfl⟩

include htag

lemma named : namedWell (part tag attributes content) (around == "schema") tag = true := by
  cases htitle with
  | top hname =>
    obtain rfl | rfl := htag <;> simp [namedWell, attributeWell, isNameValue_plain hname]
  | inside haround => obtain rfl | rfl := htag <;> simp [namedWell, attributeWell, haround]

/-- A type is well placed if its content is. -/
lemma placed (hfollows : follows (contentSteps (part tag attributes content) around tag)
      (contentNames (part tag attributes content)) = true)
    (hshaped : shapedWell (part tag attributes content) around tag = true) :
    Placed d scope around tag attributes content := by
  refine ⟨?_, hfollows, ?_, hshaped, ?_⟩
  · cases htitle with
    | top => obtain rfl | rfl := htag <;> (change ["name"] ⊆ _; decide)
    | inside => exact List.nil_subset _
  · obtain rfl | rfl := htag <;> rfl
  · obtain rfl | rfl := htag <;> exact fun hmem => absurd hmem (by decide)

end IsTitle

include h in
lemma partsWell_simpleType {around : String} {attributes : List (String × String)}
    (htitle : IsTitle around attributes) (base : Primitive) {facets : List Facet}
    (hfacets : Patternless facets) :
    partsWell d scope around (part "simpleType" attributes [renderRestriction base facets]) =
    true := by
  have hrestriction := partsWell_restriction h base hfacets
  have hplaced : Placed d scope around "simpleType" attributes [renderRestriction base facets] := by
    refine htitle.placed (.inl rfl) ?_ rfl
    change follows [note, once ["restriction", "list", "union"]] ["restriction"] = true
    exact follows_one (by decide) (by decide)
  rw [partsWell_once hplaced (by decide) (by simp [renderRestriction]) htitle.bounds,
    List.forall_mem_singleton]
  exact ⟨htitle.named (.inl rfl), hrestriction⟩

/-- An attribute has a name that is plain, and follows no pattern. -/
structure IsPlainUse (a : AttributeUse) : Prop where
  name : Xml.isPlainNameText a.name
  facets : Patternless a.facets

lemma tag_attribute (a : AttributeUse) : (renderAttribute a).tag? = some (tagOf "attribute") := by
  unfold renderAttribute
  dsimp only
  split <;> rfl

include h in
/-- An attribute passes unless it takes the name of bindings. -/
lemma partsWell_attribute {around : String} (haround : (around == "schema") = false)
    {a : AttributeUse} (ha : IsPlainUse a) :
    partsWell d scope around (renderAttribute a) = true ↔ a.name ≠ "xmlns" := by
  have hnamed {attributes : List (String × String)} {content : List Node}
      (hname : attributes.lookup "name" = some a.name) (href : attributes.lookup "ref" = none) :
      namedWell (part "attribute" attributes content) (around == "schema") "attribute" = true ↔
        a.name ≠ "xmlns" := by
    simp [namedWell, attributeWell, haround, hname, href, isNameValue_plain ha.name]
  have htype : refers d scope d.simpleTypes (builtinTypes.filter (· != "anyType"))
      a.primitive.reference = true :=
    h.refers_primitive primitive_simple a.primitive
  have hsimple :=
    partsWell_simpleType h (.inside rfl : IsTitle "attribute" []) a.primitive ha.facets
  have hknown : ["name", "type", "use"] ⊆ attributesOf (around == "schema") "attribute" := by
    rw [haround]
    decide
  unfold renderAttribute
  dsimp only
  generalize huse : (if a.required = true then [("use", "required")] else []) = use
  have huse : use = [] ∨ use = [("use", "required")] := by
    rw [← huse]
    cases a.required
    · exact .inl rfl
    · exact .inr rfl
  split
  · have hplaced :
        Placed d scope around "attribute"
          ([("name", a.name), ("type", a.primitive.reference)] ++ use) [] := by
      obtain rfl | rfl := huse
      · refine placed_of_not_facet (by decide) (List.Subset.trans ?_ hknown) (follows_nil _) ?_ rfl
        · simp
        · simp [refersWell, attributeWell, List.lookup_cons, htype]
      · refine placed_of_not_facet (by decide) (List.Subset.trans ?_ hknown) (follows_nil _) ?_ rfl
        · simp
        · simp [refersWell, attributeWell, List.lookup_cons, htype]
    rw [partsWell_once hplaced (by decide) (by simp), hnamed rfl]
    · simp
    · obtain rfl | rfl := huse <;> rfl
    · obtain rfl | rfl := huse <;> exact ⟨rfl, rfl⟩
  · have hfollows : follows [note, once ["simpleType"]] ["simpleType"] = true :=
      follows_one (by decide) (by decide)
    have hplaced : Placed d scope around "attribute" (("name", a.name) :: use)
        [part "simpleType" [] [renderRestriction a.primitive a.facets]] := by
      obtain rfl | rfl := huse
      · exact placed_of_not_facet (by decide) (List.Subset.trans (by simp) hknown) hfollows rfl rfl
      · exact placed_of_not_facet (by decide) (List.Subset.trans (by simp) hknown) hfollows rfl rfl
    rw [partsWell_once hplaced (by decide) (by simp), hnamed rfl]
    · simp [hsimple]
    · obtain rfl | rfl := huse <;> rfl
    · obtain rfl | rfl := huse <;> exact ⟨rfl, rfl⟩

/-! ## Attributes together -/

/-- No two attributes have one name, and none takes that of bindings. -/
structure UsesFit (uses : List AttributeUse) : Prop where
  apart : (uses.map AttributeUse.name).Nodup
  unbound : ∀ a ∈ uses, a.name ≠ "xmlns"

lemma namesIn_attributes {n : Node} {uses : List AttributeUse}
    (hn : n.childrenNamed "attribute" = uses.map renderAttribute) :
    namesIn n "attribute" = uses.map AttributeUse.name := by
  rw [namesIn, hn, List.filterMap_map]
  simp

lemma follows_attributes (uses : List AttributeUse) :
    follows (note :: attributeSteps) (uses.map fun _ => "attribute") = true := by
  rw [follows_skip (by simp [note, once])]
  exact follows_often (by simp)

include h in
lemma partsWell_attributes {around : String} (haround : (around == "schema") = false)
    {uses : List AttributeUse} (huses : ∀ a ∈ uses, IsPlainUse a) :
    (∀ n ∈ uses.map renderAttribute, partsWell d scope around n = true) ↔
    ∀ a ∈ uses, a.name ≠ "xmlns" := by
  rw [List.forall_mem_map]
  exact forall₂_congr fun a ha => partsWell_attribute h haround (huses a ha)

include h in
/-- The content of an element with text passes if its attributes are told apart. -/
lemma partsWell_extension (base : Primitive) {uses : List AttributeUse}
    (huses : ∀ a ∈ uses, IsPlainUse a) :
    partsWell d scope "complexType" (renderExtension base uses) = true ↔ UsesFit uses := by
  have hchildren :
      (part "extension" [("base", base.reference)] (uses.map renderAttribute)).childrenNamed
      "attribute" =
      uses.map renderAttribute := filter_attributes uses
  have hextension :
      Placed d scope "simpleContent" "extension" [("base", base.reference)]
        (uses.map renderAttribute) := by
    refine placed_of_not_facet (by decide) ?_ ?_ (h.refers_primitive primitive_any base) rfl
    · change ["base"] ⊆ _
      decide
    rw [contentNames_map _ _ tag_attribute]
    exact follows_attributes uses
  have hfollows : follows [note, once ["restriction", "extension"]] ["extension"] = true :=
    follows_one (by decide) (by decide)
  have hplaced : Placed d scope "complexType" "simpleContent" []
      [part "extension" [("base", base.reference)] (uses.map renderAttribute)] :=
    placed_of_not_facet (by decide) (by simp) hfollows rfl rfl
  rw [renderExtension, partsWell_once hplaced (by decide) (by simp) ⟨rfl, rfl⟩,
    List.forall_mem_singleton, partsWell_part hextension (by decide), namesIn_attributes hchildren,
    partsWell_attributes h rfl huses]
  constructor
  · rintro ⟨-, -, hapart, -, hunbound⟩
    exact ⟨hapart, hunbound⟩
  · rintro ⟨hapart, hunbound⟩
    exact ⟨rfl, rfl, hapart, occursWell_once rfl rfl, hunbound⟩

include h in
/-- The complex type of an element with text, at the top or in a particle. -/
lemma partsWell_extended {around : String} {attributes : List (String × String)}
    (htitle : IsTitle around attributes) (base : Primitive) {uses : List AttributeUse}
    (huses : ∀ a ∈ uses, IsPlainUse a) :
    partsWell d scope around (part "complexType" attributes [renderExtension base uses]) = true ↔
    UsesFit uses := by
  have hplaced : Placed d scope around "complexType" attributes [renderExtension base uses] := by
    refine htitle.placed (.inr rfl) ?_ (by cases htitle <;> rfl)
    change follows [note, once ["simpleContent", "complexContent"]] ["simpleContent"] = true
    exact follows_one (by decide) (by decide)
  rw [partsWell_once hplaced (by decide) (by simp [renderExtension]) htitle.bounds,
    List.forall_mem_singleton, partsWell_extension h base huses]
  exact and_iff_right (htitle.named (.inr rfl))

/-! ## Particles -/

/-- What a particle refers to is there, and no pattern is followed inside of it. -/
inductive Content.IsPlain (d : Declared) (scope : List (String × String)) : Content → Prop
  | named {reference : String}
      (h : refers d scope (d.simpleTypes ++ d.complexTypes) builtinTypes reference = true) :
      IsPlain d scope (.named reference)
  | builtin (primitive : Primitive) : IsPlain d scope (.builtin primitive)
  | restricted {facets : List Facet} (h : Patternless facets) : IsPlain d scope (.restricted facets)
  | extended (base : Primitive) {uses : List AttributeUse} (h : ∀ a ∈ uses, IsPlainUse a) :
      IsPlain d scope (.extended base uses)

structure IsPlainParticle (d : Declared) (scope : List (String × String)) (p : Particle) :
    Prop where
  name : Xml.isPlainNameText p.name
  range : p.range.Proper
  content : p.content.IsPlain d scope

lemma tag_particle (p : Particle) : (renderParticle p).tag? = some (tagOf "element") := by
  unfold renderParticle
  cases p.content <;> rfl

lemma usesFit_nil : UsesFit [] := ⟨List.nodup_nil, by simp⟩

/-- How a range is spelled by attributes. -/
def boundsOf (r : Range) : List (String × String) :=
  [("minOccurs", Number.text r.lower), ("maxOccurs", r.upper.text)]

section
variable {name : String} {r : Range} (hname : Xml.isPlainNameText name) (hr : r.Proper)
include hname hr

/-- An element with a type by name passes if it is within the limit. -/
lemma partsWell_typed {type : String}
    (hrefers : refers d scope (d.simpleTypes ++ d.complexTypes) builtinTypes type = true) :
    partsWell d scope "sequence"
    (part "element" (("name", name) :: ("type", type) :: boundsOf r) []) = true ↔
      IsLimited r := by
  have hplaced : Placed d scope "sequence" "element"
      (("name", name) :: ("type", type) :: boundsOf r) [] := by
    refine placed_of_not_facet (by decide) ?_ (follows_nil _) ?_ rfl
    · change ["name", "type", "minOccurs", "maxOccurs"] ⊆ _
      decide
    · simp [refersWell, attributeWell, List.lookup_cons, boundsOf, hrefers]
  have hnamed : namedWell (part "element" (("name", name) :: ("type", type) :: boundsOf r) [])
      false "element" =
      true := by
    simp [namedWell, attributeWell, List.lookup_cons, boundsOf, isNameValue_plain hname]
  rw [partsWell_part hplaced (by decide), occursWell_iff hr rfl rfl]
  exact ⟨fun hall => hall.2.2.1, fun hlimited => ⟨hnamed, List.nodup_nil, hlimited, by simp⟩⟩

/-- An element that holds its type passes if the type does and it is within the limit. -/
lemma partsWell_holder {tag : String} {content : List Node}
    (htag : tag = "simpleType" ∨ tag = "complexType") :
    partsWell d scope "sequence"
    (part "element" (("name", name) :: boundsOf r) [part tag [] content]) = true ↔
      partsWell d scope "element" (part tag [] content) = true ∧ IsLimited r := by
  have hfollows : follows [note, once ["simpleType", "complexType"],
      often ["unique", "key", "keyref"]] [tag] =
      true := by
    obtain rfl | rfl := htag
    · exact follows_one (by decide) (by decide)
    · exact follows_one (by decide) (by decide)
  have hplaced : Placed d scope "sequence" "element" (("name", name) :: boundsOf r)
      [part tag [] content] := by
    refine placed_of_not_facet (by decide) ?_ hfollows rfl rfl
    change ["name", "minOccurs", "maxOccurs"] ⊆ _
    decide
  have hnamed : namedWell (part "element" (("name", name) :: boundsOf r) [part tag [] content])
      false "element" =
      true := by
    simp [namedWell, attributeWell, List.lookup_cons, boundsOf, isNameValue_plain hname]
  have hnone : namesIn (part "element" (("name", name) :: boundsOf r) [part tag [] content])
      "attribute" = [] := by
    refine namesIn_eq_nil (List.forall_mem_singleton.mpr ?_)
    obtain rfl | rfl := htag <;> simp
  rw [partsWell_part hplaced (by decide), occursWell_iff hr rfl rfl, hnone,
    List.forall_mem_singleton]
  exact ⟨fun hall => ⟨hall.2.2.2, hall.2.2.1⟩, fun hall => ⟨hnamed, List.nodup_nil, hall.2, hall.1⟩⟩

end

include h in
/-- A particle passes if its attributes are told apart and it is within the limit. -/
lemma partsWell_particle {p : Particle} (hp : IsPlainParticle d scope p) :
    partsWell d scope "sequence" (renderParticle p) = true ↔
    UsesFit p.content.uses ∧ IsLimited p.range := by
  obtain ⟨hname, hrange, hplain⟩ := hp
  unfold renderParticle
  dsimp only
  generalize p.content = content at hplain
  cases hplain with
  | named hrefers =>
    exact (partsWell_typed hname hrange hrefers).trans (and_iff_right usesFit_nil).symm
  | builtin primitive =>
    have htyped := partsWell_typed hname hrange (h.refers_primitive primitive_any primitive)
    exact htyped.trans (and_iff_right usesFit_nil).symm
  | restricted hfacets =>
    refine (partsWell_holder hname hrange (.inl rfl)).trans (and_congr_left fun _ => ?_)
    exact iff_of_true (partsWell_simpleType h (.inside rfl) .string hfacets) usesFit_nil
  | extended base huses =>
    refine (partsWell_holder hname hrange (.inr rfl)).trans (and_congr_left fun _ => ?_)
    exact partsWell_extended h (.inside rfl) base huses

/-! ## Types -/

/-- The particles of a body. -/
def TypeBody.particles : TypeBody → List Particle
  | .sequence particles _ => particles
  | _ => []

/-- What the particles of a body refer to is there, and no pattern is followed inside of it. -/
inductive TypeBody.IsPlain (d : Declared) (scope : List (String × String)) : TypeBody → Prop
  | sequence {particles : List Particle} {uses : List AttributeUse}
      (hparticles : ∀ p ∈ particles, IsPlainParticle d scope p) (huses : ∀ a ∈ uses, IsPlainUse a) :
      IsPlain d scope (.sequence particles uses)
  | extended (base : Primitive) {uses : List AttributeUse} (h : ∀ a ∈ uses, IsPlainUse a) :
      IsPlain d scope (.extended base uses)
  | restricted {facets : List Facet} (h : Patternless facets) : IsPlain d scope (.restricted facets)

/-- The attributes of a body and of its particles are told apart, and its particles are within the
limit. -/
structure TypeBody.Fits (body : TypeBody) : Prop where
  uses : UsesFit body.uses
  particles : ∀ p ∈ body.particles, UsesFit p.content.uses ∧ IsLimited p.range

include h in
lemma partsWell_sequence {particles : List Particle}
    (hparticles : ∀ p ∈ particles, IsPlainParticle d scope p) :
    partsWell d scope "complexType" (sequenceNode particles) = true ↔
      ∀ p ∈ particles, UsesFit p.content.uses ∧ IsLimited p.range := by
  have hplaced : Placed d scope "complexType" "sequence" [] (particles.map renderParticle) := by
    refine placed_of_not_facet (by decide) (by simp) ?_ rfl rfl
    change follows (note :: modelSteps) _ = true
    rw [contentNames_map _ _ tag_particle, follows_skip (by simp [note, once])]
    exact follows_often (by simp)
  have hnone : ∀ n ∈ particles.map renderParticle, n.localName? ≠ some "attribute" := by
    rw [List.forall_mem_map]
    simp
  rw [sequenceNode, partsWell_once hplaced (by decide) hnone ⟨rfl, rfl⟩, List.forall_mem_map]
  exact (and_iff_right rfl).trans (forall₂_congr fun p hp => partsWell_particle h (hparticles p hp))

include h in
/-- A type passes if its attributes and those of its particles are told apart, and these are within
the limit. -/
lemma partsWell_type {t : TypeDefinition} (hname : Xml.isPlainNameText t.name)
    (hbody : t.body.IsPlain d scope) :
    partsWell d scope "schema" t.render = true ↔ t.body.Fits := by
  unfold TypeDefinition.render TypeBody.render
  generalize t.body = body at hbody
  cases hbody with
  | @sequence particles uses hparticles huses =>
    set content := sequenceNode particles :: uses.map renderAttribute
    change partsWell d scope "schema" (part "complexType" [("name", t.name)] content) = true ↔ _
    have hchildren : (part "complexType" [("name", t.name)] content).childrenNamed "attribute" =
        uses.map renderAttribute := filter_attributes uses
    have hcontent : contentNames (part "complexType" [("name", t.name)] content) =
        "sequence" :: uses.map fun _ => "attribute" :=
      congrArg ("sequence" :: ·) (contentNames_map "complexType" [] tag_attribute uses)
    have htitle : IsTitle "schema" [("name", t.name)] := .top hname
    have hplaced : Placed d scope "schema" "complexType" [("name", t.name)] content := by
      refine htitle.placed (.inr rfl) ?_ rfl
      have hsteps : contentSteps (part "complexType" [("name", t.name)] content)
          "schema" "complexType" =
          note :: once ["group", "all", "choice", "sequence"] :: attributeSteps := by
        simp [contentSteps, hcontent, stepsOf]
      rw [hsteps, hcontent, follows_skip (by simp [note, once]), follows_once (by decide)]
      exact follows_often (by simp)
    rw [partsWell_part hplaced (by decide), namesIn_attributes hchildren, List.forall_mem_cons,
      partsWell_sequence h hparticles, partsWell_attributes h rfl huses]
    constructor
    · rintro ⟨-, hapart, -, hall, hunbound⟩
      exact ⟨⟨hapart, hunbound⟩, hall⟩
    · rintro ⟨⟨hapart, hunbound⟩, hall⟩
      exact ⟨htitle.named (.inr rfl), hapart, occursWell_once rfl rfl, hall, hunbound⟩
  | @extended base uses huses =>
    refine (partsWell_extended h (.top hname) base huses).trans
      ⟨fun hfit => ⟨hfit, by simp [TypeBody.particles]⟩, ?_⟩
    exact fun hfits => hfits.uses
  | @restricted facets hfacets =>
    refine iff_of_true (partsWell_simpleType h (.top hname) .string hfacets)
      ⟨usesFit_nil, by simp [TypeBody.particles]⟩

lemma partsWell_root {name type : String} (hname : Xml.isPlainNameText name)
    (htype : refers d scope (d.simpleTypes ++ d.complexTypes) builtinTypes type = true) :
    partsWell d scope "schema" (renderRoot name type) = true := by
  have hplaced : Placed d scope "schema" "element" [("name", name), ("type", type)] [] := by
    refine placed_of_not_facet (by decide) (by change ["name", "type"] ⊆ _; decide)
      (follows_nil _) ?_ rfl
    simp [refersWell, attributeWell, List.lookup_cons, htype]
  refine (partsWell_once hplaced (by decide) (by simp) ⟨rfl, rfl⟩).mpr ⟨?_, by simp⟩
  simp [namedWell, attributeWell, isNameValue_plain hname]

end
end SchemaLoom.Xsd
