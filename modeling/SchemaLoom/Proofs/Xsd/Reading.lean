import SchemaLoom.Proofs.Xml.Opening
import SchemaLoom.Proofs.Xml.Reader
import SchemaLoom.Proofs.Xsd.Recall
import SchemaLoom.Proofs.Xsd.Roots
import SchemaLoom.Xsd.Render

/-! The text of a schema is read back as the schema that was compiled, unless the profile takes one
of the two namespaces that are bound to their own qualifiers everywhere. -/
namespace SchemaLoom.Xsd
open Profile (Declaration Siblings Forest ConversionError ElementProfile Source AttributeUse
  Facet Primitive)
open Xml (Node QName Tagged Readable Scope)

/-! ## All texts of a schema are legal -/

lemma isLegalText_bound (b : Profile.Bound) : Xml.isLegalText b.text := by
  cases b with
  | finite n => exact isLegalText_text n
  | unbounded => decide

lemma isLegalText_reference (p : Primitive) : Xml.isLegalText p.reference := by
  cases p <;> decide

section
variable {s : Settings} {roots : List Declaration}

lemma recalls_rootOf {g : Siblings Subject} (hg : g ∈ groups (Subject.ofAll s [] 0 roots)) :
    Recalls s (.ofRoots roots) (rootOf s g) fun _ => True := by
  have hstands := Subject.stands_of_mem_group hg
  have hfirst := hstands _ g.first_mem_members
  have hbody : g.first.Recalled s (.ofRoots roots) := by
    rw [hfirst.eq_of]
    exact recalls_body _ _ hfirst.at_path
  unfold rootOf
  refine .skip (.of_computes (computes_merge fun x hx => (hstands x hx).digest)) fun _ => ?_
  refine .skip (recalls_typeFor hfirst hbody _) fun name => .skip (recalls_tell _) fun _ => ?_
  exact .get_bind fun c _ => .pure trivial

/-- A schema is put together of told types, in the namespace that was given. -/
theorem recalls_compileRoots {c : Context} (hc : Sound s (.ofRoots roots) c) :
    Ends (recalling s (.ofRoots roots)) (compileRoots s roots) (fun schema c' =>
      (∃ declared, Made c'.uri declared schema.types schema) ∧
      ∀ t ∈ schema.types, t.Told (.ofRoots roots))
      (fun _ => True) c := by
  unfold compileRoots
  have hroots : Recalls s (.ofRoots roots) ((groups (Subject.ofAll s [] 0 roots)).mapM (rootOf s))
      fun _ => True :=
    (Recalls.mapM (P := fun _ => True) fun g hg => recalls_rootOf hg).mono fun _ _ => trivial
  refine (hroots c hc).bind fun declared c' hc' _ _ => .get_bind ?_
  cases hmake : Schema.make c'.uri declared c'.registry.types with
  | ok schema =>
    have hmade := made_of_make hmake
    have htypes : schema.types = c'.registry.types := by rw [hmade.eq]
    rw [← htypes] at hmade
    exact .pure hc' ⟨⟨_, hmade⟩, htypes ▸ hc'.told⟩
  | error fault => exact .throw hc' trivial

end

/-- A schema all of whose texts can stand in a document. -/
structure Schema.IsLegal (schema : Schema) : Prop where
  uri : ∀ uri, schema.uri = some uri → uri ≠ "" ∧ Xml.isLegalText uri ∧ Uri.isReference uri
  roots : ∀ root ∈ schema.roots, Xml.isLegalText root.1 ∧ Xml.isLegalText root.2
  types : ∀ t ∈ schema.types, Xml.isLegalText t.name ∧ ∀ x ∈ t.body.texts, Xml.isLegalText x

/-- What is compiled from a legal document can be written, and is in the namespace of its
profile. -/
theorem isLegal_compiled {s : Settings} {source : Source} {schema : Schema}
    (h : source.holder.IsLegal) (hcompile : compile s source.profile = .ok schema) :
    schema.IsLegal ∧ schema.uri = source.uri.filter (· != "") := by
  have hends := recalls_compileRoots (sound_start s (.ofRoots source.profile.roots) source.uri)
  obtain ⟨⟨declared, hmade⟩, htold⟩ := hends.ok schema hcompile
  rw [hends.moves, Context.start] at hmade
  have hlegal {x : String} (hx : Told (.ofRoots source.profile.roots) x) : Xml.isLegalText x := by
    obtain hx | ⟨d, hd, hx⟩ := hx
    · exact hx
    · exact Profile.isLegalText_declared h hd x hx
  refine ⟨⟨?_, ?_, ?_⟩, by rw [hmade.eq]⟩
  · intro given hgiven
    rw [hmade.eq] at hgiven
    obtain ⟨hlegal, hreference⟩ := hmade.uri given hgiven
    exact ⟨by simpa using (Option.filter_eq_some_iff.mp hgiven).2, hlegal, hreference⟩
  · rw [hmade.eq]
    exact hmade.roots
  · intro t ht
    exact ⟨(htold t ht).name, fun x hx => hlegal ((htold t ht).body x hx)⟩

/-! ## Parts of a schema -/

/-- The tags of a schema. -/
def partNames : List String :=
  ["schema", "element", "complexType", "sequence", "simpleContent", "extension",
  "simpleType", "restriction", "attribute", "minLength", "maxLength", "pattern"]

/-- The attributes of a schema and of its parts. -/
def attributeNames : List String :=
  ["targetNamespace", "elementFormDefault", "name", "type", "use", "base", "value",
  "minOccurs", "maxOccurs"]

/-- A part of a schema that can be written, and is read back where names of schemas are
understood. -/
structure Legible (height : Nat) (scope : Scope) (n : Node) : Prop where
  tagged : Tagged n
  readable : Readable height scope n

section
variable {height : Nat} {scope : Scope} {name : String}
  {bindings attributes : List (String × String)} {content : List Node}

/-- The tag of a part is clear where the qualifier of schemas is bound to their namespace. -/
lemma clear_part (bindings attributes : List (String × String))
    (hfind : Scope.find? (bindings ++ scope) "xs" = some schemaUri) (hname : name ∈ partNames)
    (hbindings : (bindings.map Prod.fst).Sublist ["xs", "tns"])
    (hattributes : (attributes.map Prod.fst).Sublist attributeNames) :
    Xml.Clear scope (tagOf name) bindings
    (attributes.map fun (name, value) => ⟨.plain name, value⟩) where
  qualifier := .inr (show Xml.isPlainNameText "xs" = true by decide)
  qualifies := show "xs" ≠ "xmlns" by decide
  localPart := by
    have hplain : ∀ x ∈ partNames, Xml.isPlainNameText x = true := by decide
    exact hplain name hname
  known := hfind
  qualified := fun _ => rfl
  unhidden := show some schemaUri ≠ some "" by decide
  bound := by
    have hplain : ∀ x ∈ ["xs", "tns"], Xml.isPlainNameText x = true ∧ x ≠ "xml" := by decide
    intro b hb
    obtain ⟨hname, hxml⟩ := hplain b.1 (hbindings.subset (List.mem_map_of_mem hb))
    exact ⟨.inr hname, hxml⟩
  boundOnce := by
    have hnodup : ["xs", "tns"].Nodup := by decide
    exact hnodup.sublist hbindings
  given := by
    have hplain : ∀ x ∈ attributeNames, Xml.isPlainNameText x = true ∧ x ≠ "xmlns" := by decide
    intro a ha
    obtain ⟨b, hb, rfl⟩ := List.mem_map.mp ha
    exact ⟨rfl, hplain b.1 (hattributes.subset (List.mem_map_of_mem hb))⟩
  givenOnce := by
    have hnodup : attributeNames.Nodup := by decide
    rw [List.map_map]
    exact hnodup.sublist hattributes

lemma tagged_part (hclear : Xml.Clear scope (tagOf name) bindings
      (attributes.map fun (name, value) => ⟨.plain name, value⟩))
    (hbindings : ∀ b ∈ bindings, Xml.isLegalText b.2)
    (hattributes : ∀ a ∈ attributes, Xml.isLegalText a.2) (hcontent : ∀ n ∈ content, Tagged n) :
    Tagged (.element (tagOf name) bindings
    (attributes.map fun (name, value) => ⟨.plain name, value⟩) content) := by
  refine .element hclear.isWord_tag hclear.named (fun a ha => ?_) hcontent
  obtain ha | ha := List.mem_append.mp ha
  · obtain ⟨b, hb, rfl⟩ := List.mem_map.mp ha
    exact List.all_eq_true.mp (hbindings b hb)
  · rw [List.map_map] at ha
    obtain ⟨b, hb, rfl⟩ := List.mem_map.mp ha
    exact List.all_eq_true.mp (hattributes b hb)

lemma legible_part (hscope : scope.find? "xs" = some schemaUri) (hname : name ∈ partNames)
    (hsub : (attributes.map Prod.fst).Sublist attributeNames)
    (hlegal : ∀ a ∈ attributes, Xml.isLegalText a.2)
    (hcontent : ∀ n ∈ content, Legible height scope n) :
    Legible (height + 1) scope (part name attributes content) := by
  have hclear := clear_part [] attributes hscope hname (List.nil_sublist _) hsub
  constructor
  · exact tagged_part hclear (by simp) hlegal fun n hn => (hcontent n hn).tagged
  · exact .element (hclear.opens (by simp)) fun n hn => (hcontent n hn).readable

variable (hscope : scope.find? "xs" = some schemaUri)
include hscope

lemma legible_facet {f : Facet} (hf : Xml.isLegalText f.value) (height : Nat) :
    Legible (height + 1) scope (renderFacet f) := by
  apply legible_part hscope
  · cases f <;> simp [partNames, Facet.name]
  · change ["value"].Sublist attributeNames
    decide
  · simpa using hf
  · simp

lemma legible_restriction (base : Primitive) {facets : List Facet}
    (hfacets : ∀ x ∈ facets.map Facet.value, Xml.isLegalText x) (height : Nat) :
    Legible (height + 2) scope (renderRestriction base facets) := by
  apply legible_part hscope (by decide)
  · change ["base"].Sublist attributeNames
    decide
  · simpa using isLegalText_reference base
  · intro n hn
    obtain ⟨f, hf, rfl⟩ := List.mem_map.mp hn
    exact legible_facet hscope (hfacets _ (List.mem_map_of_mem hf)) height

/-- A part that only holds another one. -/
lemma legible_wrapper {n : Node} (hname : name ∈ partNames) (h : Legible height scope n) :
    Legible (height + 1) scope (part name [] [n]) := by
  apply legible_part hscope hname
  · exact List.nil_sublist _
  · simp
  · simpa using h

lemma legible_attribute {a : AttributeUse} (ha : ∀ x ∈ a.texts, Xml.isLegalText x) (height : Nat) :
    Legible (height + 4) scope (renderAttribute a) := by
  obtain ⟨hname, hfacets⟩ := List.forall_mem_cons.mp ha
  have htype := isLegalText_reference a.primitive
  have huse : Xml.isLegalText "required" := by decide
  unfold renderAttribute
  dsimp only
  split
  · apply legible_part hscope (by decide)
    · cases a.required
      · change ["name", "type"].Sublist attributeNames
        decide
      · change ["name", "type", "use"].Sublist attributeNames
        decide
    · cases a.required <;> simp [hname, htype, huse]
    · simp
  · apply legible_part hscope (by decide)
    · cases a.required
      · change ["name"].Sublist attributeNames
        decide
      · change ["name", "use"].Sublist attributeNames
        decide
    · cases a.required <;> simp [hname, huse]
    · have hmember : "simpleType" ∈ partNames := by decide
      simpa using legible_wrapper hscope hmember
        (legible_restriction hscope a.primitive hfacets height)

lemma legible_extension (base : Primitive) {attributes : List AttributeUse}
    (h : ∀ x ∈ attributes.flatMap AttributeUse.texts, Xml.isLegalText x) (height : Nat) :
    Legible (height + 6) scope (renderExtension base attributes) := by
  apply legible_wrapper hscope (by decide)
  apply legible_part hscope (by decide)
  · change ["base"].Sublist attributeNames
    decide
  · simpa using isLegalText_reference base
  · intro n hn
    obtain ⟨a, ha, rfl⟩ := List.mem_map.mp hn
    exact legible_attribute hscope (fun x hx => h x (List.mem_flatMap.mpr ⟨a, ha, hx⟩)) height

lemma legible_particle {p : Particle} (hp : ∀ x ∈ p.texts, Xml.isLegalText x) :
    Legible 8 scope (renderParticle p) := by
  obtain ⟨hname, hcontent⟩ := List.forall_mem_cons.mp hp
  have hlower := isLegalText_text p.range.lower
  have hupper := isLegalText_bound p.range.upper
  have htyped {type : String} (htype : Xml.isLegalText type) :
      Legible 8 scope (part "element" ([("name", p.name),
      ("type", type)] ++ [("minOccurs", Number.text p.range.lower),
      ("maxOccurs", p.range.upper.text)]) []) := by
    apply legible_part hscope (by decide)
    · change ["name", "type", "minOccurs", "maxOccurs"].Sublist attributeNames
      decide
    · simp [hname, htype, hlower, hupper]
    · simp
  have hholds {n : Node} (hn : Legible 7 scope n) :
      Legible 8 scope (part "element" [("name", p.name),
      ("minOccurs", Number.text p.range.lower), ("maxOccurs", p.range.upper.text)] [n]) := by
    apply legible_part hscope (by decide)
    · change ["name", "minOccurs", "maxOccurs"].Sublist attributeNames
      decide
    · simp [hname, hlower, hupper]
    · simpa using hn
  unfold renderParticle
  dsimp only
  cases hc : p.content with
  | named reference =>
    rw [hc] at hcontent
    exact htyped (hcontent reference (List.mem_singleton.mpr rfl))
  | builtin primitive => exact htyped (isLegalText_reference primitive)
  | restricted facets =>
    rw [hc] at hcontent
    exact hholds (legible_wrapper hscope (by decide)
      (legible_restriction hscope .string hcontent 4))
  | extended base attributes =>
    rw [hc] at hcontent
    exact hholds (legible_wrapper hscope (by decide) (legible_extension hscope base hcontent 0))

/-- A part that only has a name besides its content. -/
lemma legible_named {title : String} (hname : name ∈ partNames) (htitle : Xml.isLegalText title)
    (hcontent : ∀ n ∈ content, Legible height scope n) :
    Legible (height + 1) scope (part name [("name", title)] content) := by
  apply legible_part hscope hname
  · change ["name"].Sublist attributeNames
    decide
  · simpa using htitle
  · exact hcontent

lemma legible_type {t : TypeDefinition} (hname : Xml.isLegalText t.name)
    (hbody : ∀ x ∈ t.body.texts, Xml.isLegalText x) : Legible 10 scope t.render := by
  unfold TypeDefinition.render
  cases hb : t.body with
  | sequence particles attributes =>
    rw [hb] at hbody
    obtain ⟨hparticles, hattributes⟩ := List.forall_mem_append.mp hbody
    apply legible_named hscope (by decide) hname
    intro n hn
    obtain rfl | hn := List.mem_cons.mp hn
    · apply legible_part hscope (by decide)
      · exact List.nil_sublist _
      · simp
      · intro n hn
        obtain ⟨p, hp, rfl⟩ := List.mem_map.mp hn
        exact legible_particle hscope fun x hx => hparticles x (List.mem_flatMap.mpr ⟨p, hp, hx⟩)
    · obtain ⟨a, ha, rfl⟩ := List.mem_map.mp hn
      exact legible_attribute hscope
        (fun x hx => hattributes x (List.mem_flatMap.mpr ⟨a, ha, hx⟩)) 5
  | extended base attributes =>
    rw [hb] at hbody
    apply legible_named hscope (by decide) hname
    simpa using legible_extension hscope base hbody 3
  | restricted facets =>
    rw [hb] at hbody
    apply legible_named hscope (by decide) hname
    simpa using legible_restriction hscope .string hbody 7

lemma legible_root {root : String × String} (hname : Xml.isLegalText root.1)
    (htype : Xml.isLegalText root.2) :
    Legible 10 scope (renderRoot root.1 root.2) := by
  apply legible_part hscope (by decide)
  · change ["name", "type"].Sublist attributeNames
    decide
  · simp [hname, htype]
  · simp

/-- Everything inside of a schema can be written and read back where names of schemas are
understood. -/
lemma legible_content {schema : Schema} (h : schema.IsLegal) :
    ∀ n ∈ schema.roots.map (fun (name, type) => renderRoot name type) ++
    schema.types.map TypeDefinition.render,
      Legible 10 scope n := by
  intro n hn
  obtain hn | hn := List.mem_append.mp hn
  · obtain ⟨root, hroot, rfl⟩ := List.mem_map.mp hn
    obtain ⟨hname, htype⟩ := h.roots root hroot
    exact legible_root hscope hname htype
  · obtain ⟨t, ht, rfl⟩ := List.mem_map.mp hn
    obtain ⟨hname, hbody⟩ := h.types t ht
    exact legible_type hscope hname hbody

end

/-! ## Documents of schemas -/

/-- A namespace that no qualifier of a document may be bound to: it has a qualifier of its own
everywhere. -/
def isReserved (uri : Option String) : Bool :=
  uri == some Xml.xmlNamespace || uri == some Xml.bindingNamespace

lemma binding_schema :
    Xml.binding? (Xml.rawBinding schemaBinding) = some (some schemaBinding) := by decide +kernel

lemma binding_tns {uri : String} (hne : uri ≠ "") (hreference : Uri.isReference uri) :
    Xml.binding? (Xml.rawBinding ("tns", uri)) =
      if isReserved (some uri) then none else some (some ("tns", uri)) := by
  simp [Xml.rawBinding, Xml.binding?, isReserved, hne, hreference]

section
variable {schema : Schema} (h : schema.IsLegal)
include h

/-- The text of a legal schema without a namespace is read back. -/
lemma ofText_local (huri : schema.uri = none) : Xml.ofText? schema.text = some schema.render := by
  have hfind : Scope.find? ([schemaBinding] ++ []) "xs" = some schemaUri := by decide
  have hmember : "schema" ∈ partNames := by decide
  have hclear := clear_part [schemaBinding] [("elementFormDefault", "unqualified")] hfind
      hmember (by decide)
    (by decide)
  have hcontent := legible_content hfind h
  have htagged := tagged_part hclear (by decide) (by decide) fun n hn => (hcontent n hn).tagged
  have hopens := hclear.opens (List.forall_mem_singleton.mpr binding_schema)
  have hreadable := Readable.element hopens fun n hn => (hcontent n hn).readable
  unfold Schema.text Schema.render
  rw [huri]
  exact Xml.ofText_document_of_readable htagged hreadable (by decide)

/-- The text of a legal schema with a namespace is read back, unless the namespace is reserved. -/
lemma ofText_global {uri : String} (huri : schema.uri = some uri) :
    Xml.ofText? schema.text = if isReserved (some uri) then none else some schema.render := by
  obtain ⟨hne, hlegal, hreference⟩ := h.uri uri huri
  have hfind : Scope.find? ([schemaBinding, ("tns", uri)] ++ []) "xs" = some schemaUri := rfl
  have hmember : "schema" ∈ partNames := by decide
  have hnames : ["targetNamespace", "elementFormDefault"].Sublist attributeNames := by decide
  have hclear := clear_part [schemaBinding, ("tns", uri)]
    [("targetNamespace", uri), ("elementFormDefault", "qualified")] hfind hmember
      (List.Sublist.refl _) hnames
  have hcontent := legible_content hfind h
  have hform : Xml.isLegalText "qualified" := by decide
  have hschema : Xml.isLegalText schemaBinding.2 := by decide
  have htagged := tagged_part hclear (by simp [hlegal, hschema]) (by simp [hlegal, hform])
    fun n hn => (hcontent n hn).tagged
  have htns := binding_tns hne hreference
  unfold Schema.text Schema.render
  rw [huri]
  cases hreserved : isReserved (some uri) with
  | true =>
    rw [hreserved] at htns
    have hmem : ("tns", uri) ∈ [schemaBinding, ("tns", uri)] := by simp
    exact Xml.ofText_document_eq_none htagged (hclear.refuses hmem htns)
  | false =>
    rw [hreserved] at htns
    have hopens :=
      hclear.opens (List.forall_mem_cons.mpr ⟨binding_schema, List.forall_mem_singleton.mpr htns⟩)
    have hreadable := Readable.element hopens fun n hn => (hcontent n hn).readable
    exact Xml.ofText_document_of_readable htagged hreadable (by decide)

/-- The text of a legal schema is read back, unless its namespace is reserved. -/
lemma ofText_render :
    Xml.ofText? schema.text = if isReserved schema.uri then none else some schema.render := by
  cases hu : schema.uri with
  | none => exact ofText_local h hu
  | some uri => exact ofText_global h hu

end

lemma convert_eq_ok {s : Settings} {document : Node} {text : String}
    (h : convert s document = .ok text) :
    ∃ source schema, Source.ofDocument document = .ok source ∧
    compile s source.profile = .ok schema ∧
      schema.text = text := by
  unfold convert ElementProfile.ofDocument at h
  cases hsource : Source.ofDocument document with
  | error fault =>
    rw [hsource] at h
    cases h
  | ok source =>
    rw [hsource] at h
    change (compile s source.profile).map Schema.text = .ok text at h
    cases hcompile : compile s source.profile with
    | error e =>
      rw [hcompile] at h
      cases h
    | ok schema =>
      rw [hcompile] at h
      exact ⟨source, schema, rfl, hcompile, Except.ok.inj h⟩

/-- Where a document is converted, the text is that of the schema that its profile compiles to, and
it is read back as that schema: only a reserved namespace of the profile makes a text that cannot be
read. -/
theorem convert_reads_back {s : Settings} {octets : List UInt8} {document : Node} {text : String}
    (hread : Xml.ofOctets? octets = some document) (hconvert : convert s document = .ok text) :
    ∃ profile schema, ElementProfile.ofDocument document = .ok profile ∧
    compile s profile = .ok schema ∧
      Xml.ofText? text = if isReserved profile.uri then none else some schema.render := by
  obtain ⟨source, schema, hsource, hcompile, rfl⟩ := convert_eq_ok hconvert
  have hholder := Profile.isLegal_holder (Xml.isLegal_ofOctets hread) hsource
  obtain ⟨hlegal, huri⟩ := isLegal_compiled hholder hcompile
  rw [filter_uri (Profile.uri_ne_empty hsource)] at huri
  have hprofile : source.profile.uri = schema.uri := huri.symm
  refine ⟨source.profile, schema, Profile.profile_ofDocument hsource, hcompile, ?_⟩
  rw [hprofile]
  exact ofText_render hlegal

/-- A profile in a namespace, with a quote, marks and a tab in a name and a pattern. -/
def marked : List UInt8 :=
  ("<XMLProfile namespace='urn:a'><DataElements><XMLElement name='\"&lt;' pattern='&amp;&#9;'/>" ++
    "</DataElements></XMLProfile>").toList.map fun c => UInt8.ofNat c.toNat

/-- A profile that takes the namespace of bindings for its own. -/
def reserved : List UInt8 :=
  "<XMLProfile namespace='http://www.w3.org/2000/xmlns/'><DataElements/></XMLProfile>".toList.map
    fun c => UInt8.ofNat c.toNat

/-- The namespace of the profile in a document, and whether the document is converted. -/
def outcome (octets : List UInt8) : Option (Option String × Bool) :=
  (Xml.ofOctets? octets).bind fun document =>
    (ElementProfile.ofDocument document).toOption.map fun profile =>
    (profile.uri, (convert (.standard .permissive true) document).toOption.isSome)

lemma outcome_marked : outcome marked = some (some "urn:a", true) := by decide +kernel

lemma outcome_reserved : outcome reserved = some (some Xml.bindingNamespace, true) := by
  decide +kernel

lemma exists_of_outcome {octets : List UInt8} {uri : Option String}
    (h : outcome octets = some (uri, true)) :
    ∃ document profile text, Xml.ofOctets? octets = some document ∧
      ElementProfile.ofDocument document = .ok profile ∧ profile.uri = uri ∧
      convert (.standard .permissive true) document = .ok text := by
  obtain ⟨document, hread, hprofile⟩ := Option.bind_eq_some_iff.mp h
  obtain ⟨profile, hprofile, hparts⟩ := Option.map_eq_some_iff.mp hprofile
  obtain ⟨huri, hsome⟩ := Prod.mk.inj hparts
  obtain ⟨text, htext⟩ := Option.isSome_iff_exists.mp hsome
  exact ⟨document, profile, text, hread, eq_ok_of_toOption hprofile, huri, eq_ok_of_toOption htext⟩

/-- The schema of the marked profile is read back, and that in the reserved namespace cannot be
read. -/
theorem marked_read_back :
    (∃ document text schema, Xml.ofOctets? marked = some document ∧
      convert (.standard .permissive true) document = .ok text ∧
      Xml.ofText? text = some (Schema.render schema)) ∧
    ∃ document text, Xml.ofOctets? reserved = some document ∧
      convert (.standard .permissive true) document = .ok text ∧ Xml.ofText? text = none := by
  constructor
  · obtain ⟨document, profile, text, hread, hprofile, huri, htext⟩ :=
      exists_of_outcome outcome_marked
    obtain ⟨profile', schema, hprofile', -, hback⟩ := convert_reads_back hread htext
    cases hprofile.symm.trans hprofile'
    rw [huri] at hback
    have hfree : isReserved (some "urn:a") = false := by decide
    rw [hfree] at hback
    exact ⟨document, text, schema, hread, htext, hback⟩
  · obtain ⟨document, profile, text, hread, hprofile, huri, htext⟩ :=
      exists_of_outcome outcome_reserved
    obtain ⟨profile', schema, hprofile', -, hback⟩ := convert_reads_back hread htext
    cases hprofile.symm.trans hprofile'
    rw [huri] at hback
    have htaken : isReserved (some Xml.bindingNamespace) = true := by decide
    rw [htaken] at hback
    exact ⟨document, text, hread, htext, hback⟩

end SchemaLoom.Xsd
