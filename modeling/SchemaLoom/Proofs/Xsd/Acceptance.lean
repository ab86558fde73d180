import SchemaLoom.Proofs.Xsd.Orderly

/-! When the schema of a profile is accepted. Processors of schemas agree on schemas in order: they
accept them just if the attributes of each complex type have different names. So what they say of
the schema of a profile is told by the attributes of its declarations. The check of this library is
such a processor. -/
namespace SchemaLoom.Xsd
open Profile (Declaration Siblings Forest Source ElementProfile AttributeUse elementTag)
open Xml (Node)

/-- What the names in a schema are declared as. -/
def Schema.declared (schema : Schema) : Declared := .ofSchema schema.render

/-- A schema with plain names for itself, its roots and its types, in which all references lead to a
type. -/
structure Schema.IsPlain (schema : Schema) : Prop where
  uri : ∀ uri, schema.uri = some uri → uri ≠ "" ∧ Uri.isReference uri ∧ uri ≠ schemaUri
  rootNames : (schema.roots.map Prod.fst).Nodup
  typeNames : (schema.types.map TypeDefinition.name).Nodup
  roots : ∀ r ∈ schema.roots, Xml.isPlainNameText r.1 ∧
    refers schema.declared schema.render.bindings
    (schema.declared.simpleTypes ++ schema.declared.complexTypes)
      builtinTypes r.2 = true
  types : ∀ t ∈ schema.types, Xml.isPlainNameText t.name ∧
    t.body.IsPlain schema.declared schema.render.bindings

section
variable (schema : Schema)

lemma uri_declared : schema.declared.uri = schema.uri := by
  unfold Schema.declared Declared.ofSchema Schema.render
  cases schema.uri <;> rfl

lemma elements_declared : schema.declared.elements = schema.roots.map Prod.fst := by
  change namesIn schema.render "element" = _
  rw [namesIn, roots_render, List.filterMap_map]
  simp [renderRoot, Function.comp_def]

/-- Apart from elements, all that a schema declares at its top are its types. -/
lemma namesIn_render {name : String} (hname : name ≠ "element") : namesIn schema.render name =
    (schema.types.filter (·.render.localName? == some name)).map TypeDefinition.name := by
  have hroots : (schema.roots.map fun r => renderRoot r.1 r.2).filter (·.localName? == some name) =
      [] := by
    rw [List.filter_eq_nil_iff, List.forall_mem_map]
    simpa [renderRoot] using fun _ _ _ => hname.symm
  rw [namesIn, Node.childrenNamed, content_render, List.filter_append, hroots, List.nil_append,
    List.filter_map, List.filterMap_map]
  simp [Function.comp_def]

lemma namesIn_render_eq_nil {name : String}
    (hname : name ∉ ["element", "complexType", "simpleType"]) :
    namesIn schema.render name = [] := by
  simp only [List.mem_cons, List.not_mem_nil, or_false, not_or] at hname
  rw [namesIn_render schema hname.1, List.map_eq_nil_iff, List.filter_eq_nil_iff]
  intro t _
  obtain h | h := localName_type t
  · simpa [h] using Ne.symm hname.2.1
  · simpa [h] using Ne.symm hname.2.2

/-- The types that are declared are those of the schema, the simple ones first. -/
lemma types_declared : (schema.declared.simpleTypes ++ schema.declared.complexTypes).Perm
    (schema.types.map TypeDefinition.name) := by
  change (namesIn schema.render "simpleType" ++ namesIn schema.render "complexType").Perm _
  rw [namesIn_render schema (by decide), namesIn_render schema (by decide), ← List.map_append]
  have hother : schema.types.filter (·.render.localName? == some "complexType") =
      schema.types.filter fun t => !(t.render.localName? == some "simpleType") := by
    refine List.filter_congr fun t _ => ?_
    obtain h | h := localName_type t
    · rw [h]
      rfl
    · rw [h]
      rfl
  rw [hother]
  exact (List.filter_append_perm _ _).map _

/-- What stands at the top of a schema: elements and types. -/
lemma top_of_mem {n : Node} (hn : n ∈ schema.render.content) :
    ∃ tag ∈ ["element", "complexType", "simpleType"], n.tag? = some (tagOf tag) := by
  rw [content_render] at hn
  obtain hn | hn := List.mem_append.mp hn
  · obtain ⟨r, -, rfl⟩ := List.mem_map.mp hn
    exact ⟨"element", by decide, rfl⟩
  · obtain ⟨t, -, rfl⟩ := List.mem_map.mp hn
    unfold TypeDefinition.render TypeBody.render
    cases t.body with
    | sequence => exact ⟨"complexType", by decide, rfl⟩
    | extended => exact ⟨"complexType", by decide, rfl⟩
    | restricted => exact ⟨"simpleType", by decide, rfl⟩

/-- The attributes of a schema are two at most, without a name and bounds. -/
lemma head_render :
    ∃ attributes : List (String × String), attributes.map Prod.fst ⊆ attributesOf false "schema" ∧
    attributes.lookup "name" = none ∧
    (attributes.lookup "minOccurs" = none ∧ attributes.lookup "maxOccurs" = none) ∧
    schema.render = .element (tagOf "schema") schema.render.bindings
      (attributes.map fun (name, value) => ⟨.plain name, value⟩) schema.render.content := by
  unfold Schema.render
  cases schema.uri with
  | none => exact ⟨[("elementFormDefault", "unqualified")], by decide, rfl, ⟨rfl, rfl⟩, rfl⟩
  | some uri =>
    refine ⟨[("targetNamespace", uri), ("elementFormDefault", "qualified")], ?_, rfl,
      ⟨rfl, rfl⟩, rfl⟩
    change ["targetNamespace", "elementFormDefault"] ⊆ _
    decide

/-- The node of a schema passes if all that stands at its top does. -/
lemma partsWell_render : partsWell schema.declared [] "" schema.render = true ↔
    ∀ n ∈ schema.render.content, partsWell schema.declared schema.render.bindings "schema" n =
    true := by
  obtain ⟨attributes, hknown, hname, hbounds, hrender⟩ := head_render schema
  have hnames : ∀ name ∈ contentNames (part "schema" attributes schema.render.content),
      name ∈ ["element", "complexType", "simpleType"] := by
    intro name hname
    rw [contentNames_eq (n := part "schema" attributes schema.render.content) fun k hk =>
      (top_of_mem schema hk).imp fun _ h => h.2] at hname
    obtain ⟨n, hn, hname⟩ := List.mem_filterMap.mp hname
    obtain ⟨tag, htag, hn⟩ := top_of_mem schema hn
    rw [Node.localName?, hn] at hname
    exact Option.some.inj hname ▸ htag
  have hplaced : Placed schema.declared schema.render.bindings "" "schema" attributes
      schema.render.content := by
    have hother : ∀ name ∈ ["element", "complexType", "simpleType"],
        name ∉ (often ["import", "annotation"]).names ∧ name ∈ "annotation" :: topNames := by decide
    refine ⟨hknown, ?_, rfl, rfl, fun hmem => absurd hmem (by decide)⟩
    change follows [often ["import", "annotation"], often ("annotation" :: topNames)] _ = true
    rw [follows_skip fun name hname => (hother name (hnames name hname)).1]
    exact follows_often fun name hname => (hother name (hnames name hname)).2
  have hnone : ∀ n ∈ schema.render.content, n.localName? ≠ some "attribute" := by
    intro n hn
    obtain ⟨tag, htag, hn⟩ := top_of_mem schema hn
    rw [Node.localName?, hn]
    rintro ⟨⟩
    exact absurd htag (by decide)
  have hnamed : namedWell (part "schema" attributes schema.render.content) false "schema" =
      true := by
    simp [namedWell, attributeWell, hname]
  have hpart : partsWell schema.declared [] "" schema.render =
      partsWell schema.declared schema.render.bindings ""
        (part "schema" attributes schema.render.content) := by
    conv_lhs => rw [hrender, partsWell_bound, List.append_nil]
  rw [hpart, partsWell_once hplaced (by decide) hnone hbounds]
  exact and_iff_right hnamed

lemma understood_render (h : schema.uri ≠ some schemaUri) :
    Understood schema.declared schema.render.bindings := by
  have huri := uri_declared schema
  constructor
  · unfold Schema.render
    cases schema.uri <;> rfl
  · rw [huri]
    unfold Schema.render
    cases schema.uri <;> rfl
  · unfold Schema.render
    cases schema.uri <;> rfl
  · rwa [huri]

lemma headWell_render (h : ∀ uri, schema.uri = some uri → uri ≠ "" ∧ Uri.isReference uri) :
    headWell schema.render = true := by
  unfold Schema.render
  cases hu : schema.uri with
  | none => rfl
  | some uri =>
    obtain ⟨hne, hreference⟩ := h uri hu
    change (["qualified", "unqualified"].contains "qualified" && true &&
      (uri != "" && Uri.isReference uri)) = true
    simp [hne, hreference]

/-- A plain schema is accepted just if all its types fit. -/
theorem isSchema_iff (h : schema.IsPlain) :
    isSchema schema.render = true ↔ ∀ t ∈ schema.types, t.body.Fits := by
  have hunderstood := understood_render schema fun heq => (h.uri _ heq).2.2 rfl
  have htag : schema.render.tag?.any (fun tag => tag.uri == some schemaUri && tag.localPart ==
      "schema") = true := by
    unfold Schema.render
    cases schema.uri <;> rfl
  have hhead := headWell_render schema fun uri hu => ⟨(h.uri uri hu).1, (h.uri uri hu).2.1⟩
  have htypes := allDistinct_iff.mpr ((types_declared schema).nodup_iff.mpr h.typeNames)
  have helements : allDistinct schema.declared.elements = true :=
    allDistinct_iff.mpr (elements_declared schema ▸ h.rootNames)
  have hnone {name : String} (hname : name ∉ ["element", "complexType", "simpleType"]) :
      allDistinct (namesIn schema.render name) = true := by
    rw [namesIn_render_eq_nil schema hname]
    rfl
  have hattributes : allDistinct schema.declared.attributes = true := hnone (by decide)
  have hgroups : allDistinct schema.declared.groups = true := hnone (by decide)
  have hattributeGroups : allDistinct schema.declared.attributeGroups = true := hnone (by decide)
  unfold isSchema
  change ((_ && _ && allDistinct (schema.declared.simpleTypes ++ schema.declared.complexTypes) &&
    allDistinct schema.declared.elements && allDistinct schema.declared.attributes &&
    allDistinct schema.declared.groups && allDistinct schema.declared.attributeGroups &&
    partsWell schema.declared [] "" schema.render) = true) ↔ _
  rw [htag, hhead, htypes, helements, hattributes, hgroups, hattributeGroups]
  simp only [Bool.true_and]
  rw [partsWell_render, content_render, List.forall_mem_append, List.forall_mem_map,
    List.forall_mem_map]
  refine (and_iff_right fun r hr => ?_).trans (forall₂_congr fun t ht => ?_)
  · exact partsWell_root (h.roots r hr).1 (h.roots r hr).2
  · exact partsWell_type hunderstood (h.types t ht).1 (h.types t ht).2

end
/-! ## Schemas in order -/

/-- The attributes of every complex type in a document have different names. -/
def TypesApart (n : Node) : Prop :=
  ∀ m ∈ n.walk, m.localName? = some "complexType" → NamedApart (attributeParts m)

lemma typesApart_iff {schema : Schema} : TypesApart schema.render ↔ ∀ t ∈ schema.types,
    (t.body.uses.map AttributeUse.name).Nodup ∧
      ∀ p ∈ t.body.particles, (p.content.uses.map AttributeUse.name).Nodup := by
  constructor
  · refine fun hapart t ht => ⟨?_, fun p hp => ?_⟩
    · by_cases hnone : t.body.uses = []
      · simp [hnone]
      · have hnamed := hapart _ (mem_walk_types ht) (localName_type_of_uses hnone)
        rw [attributeParts_type] at hnamed
        exact (namedApart_attributes _).mp hnamed
    · cases hbody : t.body with
      | sequence particles attributes =>
        rw [hbody] at hp
        cases hcontent : p.content with
        | extended base uses =>
          have hnamed := hapart _ (mem_walk_extension ht hbody hp hcontent) rfl
          rw [attributeParts_extension] at hnamed
          exact (namedApart_attributes _).mp hnamed
        | named | builtin | restricted => simp [Content.uses]
      | extended | restricted =>
        rw [hbody] at hp
        cases hp
  · intro hall m hm hname
    obtain ⟨t, ht, rfl | ⟨particles, attributes, hbody, p, hp, base, uses, hcontent, rfl⟩⟩ :=
      mem_walk_complexType hm hname
    · rw [attributeParts_type]
      exact (namedApart_attributes _).mpr (hall t ht).1
    · have hnodup := (hall t ht).2 p (by rwa [hbody])
      rw [hcontent] at hnodup
      rw [attributeParts_extension]
      exact (namedApart_attributes _).mpr hnodup

lemma isBare_of_plain {name : String} (h : Xml.isPlainNameText name) : IsBare name := by
  have hcolon : ':' ∉ name.toList := fun hmem =>
    absurd (isNameChar_of_mem h ':' hmem) (by decide)
  exact ⟨fun hx => hcolon (hx.subset (by decide)), fun ht => hcolon (ht.subset (by decide))⟩

section
variable {limit : Nat} {schema : Schema}

lemma UseInOrder.isPlain {a : AttributeUse} (h : UseInOrder limit a) : IsPlainUse a :=
  ⟨h.name, h.facets.patternless⟩

lemma Content.InOrder.uses {content : Content} (h : content.InOrder limit schema) :
    ∀ a ∈ content.uses, UseInOrder limit a := by
  cases h with
  | extended base h => exact h
  | named | builtin | restricted => simp [Content.uses]

lemma TypeBody.InOrder.uses {body : TypeBody} (h : body.InOrder limit schema) :
    ∀ a ∈ body.uses, UseInOrder limit a := by
  cases h with
  | sequence names hparticles huses => exact huses
  | extended base h => exact h
  | restricted h => simp [TypeBody.uses]

lemma TypeBody.InOrder.particles {body : TypeBody} (h : body.InOrder limit schema) :
    ∀ p ∈ body.particles, p.InOrder limit schema := by
  cases h with
  | sequence names hparticles huses => exact hparticles
  | extended | restricted => simp [TypeBody.particles]

namespace Schema.InOrder
variable (h : schema.InOrder limit)
include h

lemma refers {t : TypeDefinition} (ht : t ∈ schema.types) :
    refers schema.declared schema.render.bindings
      (schema.declared.simpleTypes ++ schema.declared.complexTypes) builtinTypes
      (qualify schema.uri.isSome t.name) = true := by
  have hplain := (h.types t ht).1
  have hmem : t.name ∈ schema.declared.simpleTypes ++ schema.declared.complexTypes :=
    (types_declared schema).mem_iff.mpr (List.mem_map_of_mem ht)
  rw [← uri_declared schema]
  exact (understood_render schema h.other).refers_type hplain (isBare_of_plain hplain) hmem

lemma isPlain_content {content : Content} (hcontent : content.InOrder limit schema) :
    content.IsPlain schema.declared schema.render.bindings := by
  cases hcontent with
  | named ht => exact .named (h.refers ht)
  | builtin primitive => exact .builtin primitive
  | restricted hfacets => exact .restricted hfacets.patternless
  | extended base huses => exact .extended base fun a ha => (huses a ha).isPlain

lemma isPlain_body {body : TypeBody} (hbody : body.InOrder limit schema) :
    body.IsPlain schema.declared schema.render.bindings := by
  cases hbody with
  | sequence names hparticles huses =>
    refine .sequence (fun p hp => ?_) fun a ha => (huses a ha).isPlain
    obtain ⟨hname, hproper, -, hcontent⟩ := hparticles p hp
    exact ⟨hname, hproper, h.isPlain_content hcontent⟩
  | extended base huses => exact .extended base fun a ha => (huses a ha).isPlain
  | restricted hfacets => exact .restricted hfacets.patternless

/-- A schema in order is plain. -/
lemma isPlain : schema.IsPlain := by
  refine ⟨fun uri huri => ?_, h.rootNames, h.typeNames, fun r hr => ?_, fun t ht => ?_⟩
  · obtain ⟨hne, -, hreference⟩ := h.legal.uri uri huri
    exact ⟨hne, hreference, fun heq => h.other (heq ▸ huri)⟩
  · obtain ⟨hname, t, ht, htype⟩ := h.roots r hr
    exact ⟨hname, htype ▸ h.refers ht⟩
  · exact ⟨(h.types t ht).1, h.isPlain_body (h.types t ht).2⟩

end Schema.InOrder
end

lemma usesFit_iff {limit : Nat} {uses : List AttributeUse} (h : ∀ a ∈ uses, UseInOrder limit a) :
    UsesFit uses ↔ (uses.map AttributeUse.name).Nodup :=
  ⟨fun hfit => hfit.apart, fun hapart => ⟨hapart, fun a ha => (h a ha).unbound⟩⟩

/-- The types of a schema in order fit just if their attributes are told apart. -/
lemma Schema.InOrder.fits_iff {schema : Schema} (h : schema.InOrder occursLimit) :
    (∀ t ∈ schema.types, t.body.Fits) ↔ TypesApart schema.render := by
  rw [typesApart_iff]
  refine forall₂_congr fun t ht => ?_
  have hbody := (h.types t ht).2
  constructor
  · rintro ⟨huses, hparticles⟩
    exact ⟨huses.apart, fun p hp => (hparticles p hp).1.apart⟩
  · rintro ⟨huses, hparticles⟩
    refine ⟨(usesFit_iff hbody.uses).mpr huses, fun p hp => ?_⟩
    have hparticle := hbody.particles p hp
    exact ⟨(usesFit_iff hparticle.content.uses).mpr (hparticles p hp), hparticle.counted.upper⟩

/-- The check accepts the text of a schema in order just if the attributes of its types are told
apart. -/
theorem isSchemaText_iff {schema : Schema} (h : schema.InOrder occursLimit) :
    isSchemaText schema.text.toUTF8.toList = true ↔ TypesApart schema.render := by
  have hback : Xml.ofText? schema.text = some schema.render := by
    rw [ofText_render h.legal, h.free]
    rfl
  change (Xml.ofText? schema.text).any isSchema = true ↔ _
  rw [hback, Option.any_some, isSchema_iff schema h.isPlain, h.fits_iff]

/-! ## Processors -/

/-- No element of a schema has an upper bound of zero. -/
def Schema.IsLasting (schema : Schema) : Prop :=
  ∀ t ∈ schema.types, ∀ p ∈ t.body.particles, p.range.upper ≠ .finite 0

/-- A processor of schemas, by the texts that it accepts and the limit up to which it counts. A
schema in order is accepted if the attributes of each complex type have different names. It is not
accepted if they have not; but what is in an element that never occurs may be taken not to be
there. -/
structure Processor where
  accepts : List UInt8 → Bool
  limit : Nat
  accepts_of_apart : ∀ schema : Schema, schema.InOrder limit → TypesApart schema.render →
    accepts schema.text.toUTF8.toList = true
  apart_of_accepts : ∀ schema : Schema, schema.InOrder limit → schema.IsLasting →
    accepts schema.text.toUTF8.toList = true → TypesApart schema.render

/-- The check as a processor. -/
def Processor.checker : Processor where
  accepts := isSchemaText
  limit := occursLimit
  accepts_of_apart _ h := (isSchemaText_iff h).mpr
  apart_of_accepts _ h _ := (isSchemaText_iff h).mp

/-! ## Profiles -/

/-- No element below a declaration has an upper bound of zero. -/
def IsLasting (d : Declaration) : Prop :=
  ∀ g ∈ d.groups, (g.range Declaration.range).upper ≠ .finite 0

lemma isLasting_compile {s : Settings} {p : ElementProfile} {schema : Schema}
    (h : compile s p = .ok schema) (hlasting : ∀ d, Counts p.roots d → IsLasting d) :
    schema.IsLasting := by
  intro t ht q hq
  obtain ⟨d, hd, hshows⟩ := traced_of_compile h t ht
  cases hbody : t.body with
  | sequence particles attributes =>
    rw [hbody] at hshows hq
    obtain ⟨g, hg, hqg⟩ := exists_of_mem_right hshows.particles hq
    rw [hqg.range]
    exact hlasting d hd g hg
  | extended | restricted =>
    rw [hbody] at hq
    cases hq

/-- The attributes of the types of a schema are told apart just if those of the declarations that
count are. -/
theorem typesApart_compile {s : Settings} {p : ElementProfile} {schema : Schema}
    (hs : s.NoCollision (.ofRoots p.roots)) (hc : Compiled s p schema)
    (h : compile s p = .ok schema) :
    TypesApart schema.render ↔ ∀ d, Counts p.roots d → AttributesApart d := by
  constructor
  · intro hapart d hd
    by_cases hnone : d.attributes = []
    · simp [AttributesApart, hnone]
    · obtain ⟨n, hn, hname, hparts⟩ := exists_complexType_of_declaration hs hc hd hnone
      exact (namedApart_attributes d.attributes).mp (hparts ▸ hapart n hn hname)
  · intro hapart n hn hname
    obtain ⟨d, hd, hparts⟩ := exists_declaration_of_complexType h hn hname
    exact hparts ▸ (namedApart_attributes d.attributes).mpr (hapart d hd)

/-- The complex types of a schema declare the attributes of the declarations that count, one by one,
and none of these are brought together. So the attributes of every complex type have different names
just if no such declaration uses a name twice. Where the names of a profile are plain, it follows no
patterns and its numbers are in order, this decides for every processor whether it accepts the text
of the schema. The text in a reserved namespace is no document at all. -/
theorem accepted_iff_attributes_apart {s : Settings} {octets : List UInt8} {document : Node}
    {source : Source} {schema : Schema} (hread : Xml.ofOctets? octets = some document)
    (hdoc : Source.ofDocument document = .ok source)
    (h : compile s source.profile = .ok schema) :
    (∀ n ∈ schema.render.walk, n.localName? = some "complexType" →
      ∃ d, Counts source.profile.roots d ∧
        (attributeParts n).map (·.attribute? "name") = d.attributes.map fun a => some a.name) ∧
    (isReserved source.uri = true → Xml.ofText? schema.text = none) ∧
    (s.NoCollision (.ofRoots source.profile.roots) →
      ((∀ n ∈ schema.render.walk, n.localName? = some "complexType" →
          NamedApart (attributeParts n)) ↔
        ∀ d, Counts source.profile.roots d → AttributesApart d) ∧
      ((∀ d, (Forest.ofRoots source.profile.roots).Has d → IsPlainDeclaration d) →
        isReserved source.uri = false → source.uri ≠ some schemaUri → ∀ P : Processor,
        (∀ d, Counts source.profile.roots d → IsMeasured P.limit d) →
        ((∀ d, Counts source.profile.roots d → AttributesApart d) →
          P.accepts schema.text.toUTF8.toList = true) ∧
        ((∀ d, Counts source.profile.roots d → IsLasting d) →
          P.accepts schema.text.toUTF8.toList = true →
            ∀ d, Counts source.profile.roots d → AttributesApart d))) := by
  obtain ⟨hlegal, huri⟩ :=
    isLegal_compiled (Profile.isLegal_holder (Xml.isLegal_ofOctets hread) hdoc) h
  rw [filter_uri (Profile.uri_ne_empty hdoc)] at huri
  refine ⟨fun n hn hname => ?_, fun hreserved => ?_, fun hs => ?_⟩
  · obtain ⟨d, hd, hparts⟩ := exists_declaration_of_complexType h hn hname
    exact ⟨d, hd, by simp [hparts, Function.comp_def]⟩
  · rw [ofText_render hlegal, huri, hreserved]
    rfl
  have hc := compiled_of_compile hs (Profile.uri_ne_empty hdoc) h
  have hapart := typesApart_compile hs hc h
  refine ⟨hapart, fun hplain hfree hother P hmeasured => ?_⟩
  have hread : ∀ d, (Forest.ofRoots source.profile.roots).Has d → IsRead d := fun d =>
    isRead_profile hdoc
  have hregular : ∀ d, Counts source.profile.roots d → IsRegular P.limit d := fun d hd =>
    (hmeasured d hd).isRegular (hplain d hd.has) (hread d hd.has)
  have horder : schema.InOrder P.limit := hc.inOrder hread hregular hs h hlegal (huri ▸ hfree)
    (huri ▸ hother) fun d hd => (hplain d hd).name
  constructor
  · exact fun hall => P.accepts_of_apart schema horder (hapart.mpr hall)
  · intro hlasting haccepts
    exact hapart.mp (P.apart_of_accepts schema horder (isLasting_compile h hlasting) haccepts)

/-- An element with two attributes of one name. -/
def doubledText : String :=
  "<XMLProfile><DataElements><XMLElement name='e'><XMLAttribute name='a'/>" ++
    "<XMLAttribute name='a'/></XMLElement></DataElements></XMLProfile>"

def doubledOctets : List UInt8 := doubledText.toList.map fun c => UInt8.ofNat c.toNat

def sideNode : Node := .element (.plain "XMLAttribute") [] [⟨.plain "name", "a"⟩] []

def doubledNode : Node :=
  .element (.plain elementTag) [] [⟨.plain "name", "e"⟩] [sideNode, sideNode]

def doubled : Source := ⟨none, .element (.plain "DataElements") [] [] [doubledNode]⟩

def doubledDocument : Node := .element (.plain "XMLProfile") [] [] [doubled.holder]

lemma ofOctets_doubled : Xml.ofOctets? doubledOctets = some doubledDocument := by decide +kernel

lemma eq_of_has_doubled {d : Declaration} (h : (Forest.ofRoots doubled.profile.roots).Has d) :
    d = .ofNode doubledNode := by
  have hmem := Forest.mem_nested_of_has h
  exact List.mem_singleton.mp hmem

lemma facts_doubled : Profile.Facts.ofNode doubledNode =
    ⟨"e", .string, [], ⟨1, .finite 1⟩, [⟨"a", .string, [], false⟩, ⟨"a", .string, [], false⟩]⟩ := by
  decide +kernel

lemma attributes_doubled : (Declaration.ofNode doubledNode).attributes =
    [⟨"a", .string, [], false⟩, ⟨"a", .string, [], false⟩] := by
  rw [Declaration.attributes, Profile.facts_ofNode, facts_doubled]

lemma groups_doubled : (Declaration.ofNode doubledNode).groups = [] := by
  have hnone : doubledNode.childrenNamed elementTag = [] := by decide
  rw [Declaration.groups_eq_nil, Profile.children_ofNode, hnone]
  rfl

lemma isPlain_doubled : IsPlainDeclaration (.ofNode doubledNode) := by
  have huse : IsPlainUse ⟨"a", .string, [], false⟩ := ⟨by decide, by simp [Patternless]⟩
  refine ⟨?_, ?_, ?_⟩
  · exact (by decide : Xml.isPlainNameText "e")
  · simpa [attributes_doubled] using huse
  · simp [Declaration.facets, facts_doubled, Patternless]

lemma isMeasured_doubled (limit : Nat) : IsMeasured limit (.ofNode doubledNode) := by
  have hlengths : LengthsInOrder limit [] := ⟨by simp, by simp⟩
  refine ⟨?_, ?_, ?_, ?_⟩
  · simp [attributes_doubled]
  · simpa [attributes_doubled] using hlengths
  · simp [attributes_doubled]
  · simp [groups_doubled]

lemma compile_doubled : (compile (.standard .permissive true) doubled.profile).toOption.isSome =
    true := by
  decide +kernel

/-- The schema of the element declares the attribute twice, and is not accepted. -/
theorem doubled_not_accepted : ∃ schema, Xml.ofOctets? doubledOctets = some doubledDocument ∧
    Source.ofDocument doubledDocument = .ok doubled ∧
    compile (.standard .permissive true) doubled.profile = .ok schema ∧
    (∃ n ∈ schema.render.walk, n.localName? = some "complexType" ∧
      ¬NamedApart (attributeParts n)) ∧
    Processor.checker.accepts schema.text.toUTF8.toList = false := by
  obtain ⟨schema, hschema⟩ := Option.isSome_iff_exists.mp compile_doubled
  have hcompile := eq_ok_of_toOption hschema
  have hdoc : Source.ofDocument doubledDocument = .ok doubled := rfl
  have hs : (Settings.standard .permissive true).NoCollision (.ofRoots doubled.profile.roots) := by
    intro a b ha hb _
    rw [eq_of_has_doubled ha, eq_of_has_doubled hb]
  have hcounts : Counts doubled.profile.roots (.ofNode doubledNode) :=
    Counts.root (g := ⟨"e", .ofNode doubledNode, []⟩) List.mem_cons_self
  have htwice : ¬AttributesApart (.ofNode doubledNode) := by
    simp [AttributesApart, attributes_doubled]
  obtain ⟨-, -, hall⟩ := accepted_iff_attributes_apart ofOctets_doubled hdoc hcompile
  obtain ⟨hapart, haccepted⟩ := hall hs
  obtain ⟨-, hnecessary⟩ := haccepted (fun d hd => eq_of_has_doubled hd ▸ isPlain_doubled)
    (by decide) (by decide) .checker fun d hd => eq_of_has_doubled hd.has ▸ isMeasured_doubled _
  refine ⟨schema, ofOctets_doubled, hdoc, hcompile, ?_, ?_⟩
  · by_contra hnone
    refine htwice (hapart.mp (fun n hn hname => ?_) _ hcounts)
    by_contra hnot
    exact hnone ⟨n, hn, hname, hnot⟩
  · rw [← Bool.not_eq_true]
    intro haccepts
    refine htwice (hnecessary (fun d hd => ?_) haccepts _ hcounts)
    rw [eq_of_has_doubled hd.has, IsLasting, groups_doubled]
    simp

end SchemaLoom.Xsd
