import SchemaLoom.Proofs.Profile.Range
import SchemaLoom.Proofs.Sample.Reading
import SchemaLoom.Proofs.Xml.Layout
import SchemaLoom.Proofs.Xsd.Settling

/-! The sample of a profile is valid by the schema of the profile, though the type of an element may
have been made for another one. It is read back as it was built, unless its namespace is
reserved. -/
namespace SchemaLoom.Sample
open Profile (Declaration Facts AttributeUse Siblings Forest Source ElementProfile)
open Xml (Node)
open Xsd (Settings Schema IsValue AttributesFit Admits AdmitsBody AdmitsAll IsNamed IsValid BodyFits
  ContentFits ParticleFits Built Compiled)

/-- A declaration that can have a sample: its names can be written and are distinct, no attribute is
a binding, and all facets can be met. -/
structure Regular (d : Declaration) : Prop extends Named d where
  unbound : ∀ a ∈ d.attributes, a.name ≠ "xmlns"
  facets : Meetable d.facets
  attributeFacets : ∀ a ∈ d.attributes, Meetable a.facets

lemma Regular.writable {d : Declaration} (h : Regular d) : Writable d := ⟨h.toNamed, h.unbound⟩

/-- What makes the specimen of a declaration, the elements in it apart, fit for it. -/
structure Sampled (d : Declaration) : Prop where
  value : IsValue d.primitive d.facets (sampleText d.primitive d.facets)
  attributes : AttributesFit d.attributes (d.attributes.map attributeFor)
  range : d.range.Proper

lemma attributesFit {uses : List AttributeUse} (hdistinct : (uses.map AttributeUse.name).Nodup)
    (hunbound : ∀ a ∈ uses, a.name ≠ "xmlns")
    (hvalue : ∀ a ∈ uses, IsValue a.primitive a.facets (sampleText a.primitive a.facets)) :
    AttributesFit uses (uses.map attributeFor) := by
  refine ⟨?_, ?_, ?_⟩
  · rw [List.map_map]
    have hpair := hdistinct.map fun (a b : String) (h : ((none : Option String), a) = (none, b)) =>
      (Prod.mk.inj h).2
    rwa [List.map_map] at hpair
  · intro a ha
    obtain ⟨use, huse, rfl⟩ := List.mem_map.mp ha
    exact ⟨rfl, hunbound use huse, use, huse, rfl, hvalue use huse⟩
  · intro use huse _
    exact ⟨attributeFor use, List.mem_map_of_mem huse, rfl, rfl⟩

/-- What is read from a document has values to show, once it is regular. -/
lemma sampled_ofNode {n : Node} (h : Regular (.ofNode n)) : Sampled (.ofNode n) := by
  obtain ⟨⟨-, -, hdistinct⟩, hunbound, hfacets, hattributes⟩ := h
  simp only [Declaration.facets, Declaration.attributes, Profile.facts_ofNode, Profile.Facts.ofNode]
    at hdistinct hunbound hfacets hattributes
  refine ⟨?_, ?_, ?_⟩
  · simp only [Declaration.facets, Declaration.primitive, Profile.facts_ofNode,
      Profile.Facts.ofNode]
    exact isValue_sampleText hfacets
  · simp only [Declaration.attributes, Profile.facts_ofNode, Profile.Facts.ofNode]
    refine attributesFit hdistinct hunbound fun a ha => ?_
    have hmeetable := hattributes a ha
    obtain ⟨m, -, rfl⟩ := List.mem_map.mp ha
    simp only [AttributeUse.ofNode] at hmeetable ⊢
    exact isValue_sampleText hmeetable
  · simp only [Declaration.range, Profile.facts_ofNode, Profile.Facts.ofNode]
    exact Profile.proper_rangeOf n

section
variable {s : Settings} {F : Forest} {schema : Schema} {q : Bool}

lemma tag_specimen (uri : Option String) (d : Declaration) (own : List (String × String)) :
    (specimen uri d own).tag? = some (tagFor uri d.name) := by
  rw [specimen_eq]
  rfl

lemma isNamed_specimen (uri : Option String) (d : Declaration) (own : List (String × String))
    (level : Option Nat) : IsNamed uri d.name ((specimen uri d own).laidOut level) := by
  unfold IsNamed
  rw [Node.tag_laidOut, tag_specimen]
  cases uri <;> rfl

/-- A group is shown as often as it must occur, which is not too often. -/
lemma inRange_leastOf {r : Profile.Range} (h : r.Proper) : Xsd.inRange r (leastOf r) := by
  obtain ⟨lower, upper⟩ := r
  obtain ⟨hlower, hupper⟩ := h
  have hleast : (leastOf ⟨lower, upper⟩ : Int) = lower := Int.toNat_of_nonneg hlower
  refine ⟨Int.le_of_eq hleast.symm, ?_⟩
  cases upper with
  | unbounded => trivial
  | finite most =>
    dsimp only
    rw [hleast]
    exact hupper most rfl

/-- An element without elements in it holds its sample text. -/
lemma textIn_specimen {uri : Option String} {d : Declaration} (hnil : d.children = [])
    (own : List (String × String)) (level : Option Nat) :
    Xsd.textIn? ((specimen uri d own).laidOut level) = some (sampleText d.primitive d.facets) := by
  rw [specimen_eq, hnil]
  simp [Xsd.textIn?, Node.laidOut, Node.laidOutAll, Node.innerLevel, Node.isText,
    Xml.blanks, Node.content, Node.tag?, String.join]

lemma isBlankOrElement_of_mem_blanks {level : Option Nat} {m : Node} (h : m ∈ Xml.blanks level) :
    Xsd.isBlankOrElement m = true := by
  rw [Xml.eq_of_mem_blanks h]
  simp only [Xsd.isBlankOrElement, String.toList_ofList, List.all_eq_true]
  exact fun c hc => Xml.isSpace_of_mem_newLine hc

/-- An element with nothing but elements in it holds these, laid out or not. -/
lemma elementsIn_laidOut {n : Node} (h : ∀ m ∈ n.content, m.tag?.isSome = true)
    (level : Option Nat) :
    Xsd.elementsIn? (n.laidOut level) = some (n.content.map (·.laidOut (level.map (· + 1)))) := by
  have hall : (n.laidOut level).content.all Xsd.isBlankOrElement = true := by
    rw [Node.content_laidOut, List.all_eq_true]
    intro m hm
    obtain hm | hm := List.mem_append.mp hm
    · obtain hm | ⟨k, hk, rfl⟩ := Node.mem_laidOutAll hm
      · exact isBlankOrElement_of_mem_blanks hm
      · have helement := h k hk
        cases k with
        | text chars => cases helement
        | instruction target => rfl
        | element tag bindings attributes content => rfl
    · exact isBlankOrElement_of_mem_blanks hm
  unfold Xsd.elementsIn?
  rw [if_pos hall, Node.content_laidOut, List.filter_append, Node.filter_blanks,
    Node.filter_laidOutAll h, List.append_nil]
  by_cases hne : n.content = []
  · rw [hne]
    rfl
  · rw [Node.innerLevel_eq h hne]

/-- An element with elements in it holds those of its groups. -/
lemma elementsIn_specimen {uri : Option String} {d : Declaration} (hne : d.children ≠ [])
    (own : List (String × String)) (level : Option Nat) :
    Xsd.elementsIn? ((specimen uri d own).laidOut level) = some (d.groups.flatMap fun g =>
      List.replicate (leastOf (g.range Declaration.range))
        ((specimen uri g.first []).laidOut (level.map (· + 1)))) := by
  have hempty : d.children.isEmpty = false := by simpa using hne
  have hcontent : (specimen uri d own).content = d.groups.flatMap fun g =>
      List.replicate (leastOf (g.range Declaration.range)) (specimen uri g.first []) := by
    rw [specimen_eq, hempty]
    rfl
  rw [elementsIn_laidOut, hcontent]
  · simp only [List.map_flatMap, List.map_replicate]
  · rw [hcontent]
    intro m hm
    obtain ⟨g, -, hm⟩ := List.mem_flatMap.mp hm
    rw [List.eq_of_mem_replicate hm, tag_specimen]
    rfl

lemma attributes_specimen (uri : Option String) (d : Declaration) (own : List (String × String))
    (level : Option Nat) :
    ((specimen uri d own).laidOut level).attributes = d.attributes.map attributeFor := by
  rw [Node.attributes_laidOut, specimen_eq]
  rfl

lemma admits_leaf {d : Declaration} (h : Sampled d) (hnil : d.children = [])
    (own : List (String × String)) (level : Option Nat) :
    Admits schema (Xsd.leafContentOf d.facts) ((specimen schema.uri d own).laidOut level) ∧
      AdmitsBody schema (Xsd.leafBodyOf d.facts) ((specimen schema.uri d own).laidOut level) := by
  have htext : Xsd.textIn? ((specimen schema.uri d own).laidOut level) = _ :=
    textIn_specimen hnil own level
  have hattributes := h.attributes
  rw [← attributes_specimen schema.uri d own level] at hattributes
  have hfree : IsValue d.primitive [] (sampleText d.primitive d.facets) :=
    ⟨h.value.spelled, by simp⟩
  obtain ⟨hcontent, hbody⟩ | ⟨hnone, hstring, hcontent, hbody⟩ | ⟨hnone, hcontent, hbody⟩ :=
    Xsd.leaf_cases d.facts
  · rw [hcontent, hbody]
    exact ⟨.extended hattributes htext hfree, .extended hattributes htext hfree⟩
  · rw [hcontent, hbody]
    have hvalue := h.value
    rw [Declaration.attributes, hnone] at hattributes
    rw [show d.primitive = .string from hstring] at hvalue htext
    exact ⟨.restricted hattributes htext hvalue, .restricted hattributes htext hvalue⟩
  · rw [hcontent, hbody]
    rw [Declaration.attributes, hnone] at hattributes
    exact ⟨.builtin hattributes htext hfree, .extended hattributes htext hfree⟩

/-- Particles that describe groups admit the specimens of the groups. -/
lemma admitsAll_specimens {gs : List (Siblings Declaration)} {ps : List Xsd.Particle}
    {types : List Xsd.TypeDefinition} (level : Option Nat)
    (h : List.Forall₂ (ParticleFits q s types) gs ps) (hname : ∀ g ∈ gs, g.first.name = g.name)
    (hrange : ∀ g ∈ gs, (g.range Declaration.range).Proper)
    (hadmits : ∀ g ∈ gs, ∀ content, ContentFits q s types g.first content →
      Admits schema content ((specimen schema.uri g.first []).laidOut level)) :
    AdmitsAll schema ps (gs.flatMap fun g => List.replicate (leastOf (g.range Declaration.range))
      ((specimen schema.uri g.first []).laidOut level)) := by
  induction h with
  | nil => exact .nil
  | @cons g p gs ps hp _ ih =>
    rw [List.flatMap_cons]
    have hrest := ih (fun k hk => hname k (by simp [hk])) (fun k hk => hrange k (by simp [hk]))
      fun k hk => hadmits k (by simp [hk])
    refine .cons ?_ (fun n hn => ?_) (fun n hn => ?_) hrest
    · rw [hp.range, List.length_replicate]
      exact inRange_leastOf (hrange g (by simp))
    · rw [List.eq_of_mem_replicate hn, Xsd.localUri_eq, hp.name, ← hname g (by simp)]
      exact isNamed_specimen _ _ _ _
    · rw [List.eq_of_mem_replicate hn]
      exact hadmits g (by simp) _ hp.content

variable (hs : s.NoCollision F) (hbuilt : Built schema.uri.isSome s F schema.types)
  (hsampled : ∀ d, F.Has d → Sampled d)
include hs hbuilt hsampled

/-- A body that describes a declaration admits its specimen, whichever declaration it was made
for. -/
theorem admitsBody_specimen : ∀ d : Declaration, F.Has d → ∀ body own level,
    BodyFits schema.uri.isSome s schema.types d body →
      AdmitsBody schema body ((specimen schema.uri d own).laidOut level) := by
  intro d
  induction d using Declaration.induction with
  | h f children ih =>
    intro hd body own level hbody
    cases hbody with
    | leaf hnil => exact (admits_leaf (hsampled _ hd) hnil own level).2
    | @sequence ps hne hps =>
      have hattributes := (hsampled _ hd).attributes
      rw [← attributes_specimen schema.uri _ own level] at hattributes
      refine .sequence hattributes (elementsIn_specimen hne own level) ?_
      refine admitsAll_specimens _ hps (fun g hg => Siblings.name_first hg) (fun g hg => ?_) ?_
      · refine Siblings.proper_range fun m hm => (hsampled m (hd.child ?_)).range
        exact Siblings.mem_of_mem_members hg hm
      · intro g hg content hcontent
        have hfirst := hd.first hg
        cases hcontent with
        | leaf hnil => exact (admits_leaf (hsampled _ hfirst) hnil [] _).1
        | named _ ht hdigest =>
          exact .named ht (ih _ (Declaration.first_mem_children hg) hfirst _ [] _
            (hbuilt.fits hs ht hfirst hdigest))

end

/-- The first of some declarations stands first in its group. -/
lemma exists_group_of_head (root : Declaration) (rest : List Declaration) :
    ∃ g ∈ Siblings.byName Declaration.name (root :: rest), g.first = root := by
  obtain ⟨g, hg, hname, -⟩ := Siblings.exists_mem_members Declaration.name
    (List.mem_cons_self (a := root) (l := rest))
  have hfind := Siblings.find_first hg
  rw [hname, List.find?_cons_of_pos (by simp)] at hfind
  exact ⟨g, hg, (Option.some.inj hfind).symm⟩

/-- What is read from a document can be sampled where it is regular. -/
lemma sampled_of_has {source : Source}
    (hregular : ∀ d, (Forest.ofRoots source.profile.roots).Has d → Regular d) :
    ∀ d, (Forest.ofRoots source.profile.roots).Has d → Sampled d := by
  intro d hd
  have hd' := hregular d hd
  obtain ⟨n, -, rfl⟩ := Profile.exists_node_of_has (fun _ _ _ _ => trivial) trivial hd
  exact sampled_ofNode hd'

/-- A specimen of the first root declaration is valid at any level of a layout. -/
lemma isValid_specimen {s : Settings} {p : ElementProfile} {schema : Schema} {root : Declaration}
    {rest : List Declaration} (hs : s.NoCollision (.ofRoots p.roots)) (hc : Compiled s p schema)
    (hsampled : ∀ d, (Forest.ofRoots p.roots).Has d → Sampled d) (hroot : p.roots = root :: rest)
    (own : List (String × String)) (level : Option Nat) :
    IsValid schema ((specimen p.uri root own).laidOut level) := by
  obtain ⟨huri, hbuilt, hroots⟩ := hc
  have hhas : (Forest.ofRoots p.roots).Has root := Forest.has_of_mem (by rw [hroot]; simp)
  obtain ⟨g, hg, rfl⟩ := exists_group_of_head root rest
  rw [← hroot] at hg
  obtain ⟨declared, hmem, hname, ⟨t, ht, htype, hjudge⟩, -⟩ := exists_of_mem_left hroots hg
  refine ⟨declared.1, declared.2, hmem, ?_, ?_⟩
  · rw [Xsd.targetUri_eq, huri, hname, ← Siblings.name_first hg]
    exact isNamed_specimen _ _ _ _
  · have hdigest := ((s.judgedRight _).ok _ hjudge).1
    rw [htype, ← huri]
    exact .named ht (admitsBody_specimen hs hbuilt hsampled _ hhas _ _ _
      (hbuilt.fits hs ht hhas hdigest))

/-- The text of a sample in which everything is regular is read back as the sample without its empty
texts, unless the namespace of the profile is reserved. -/
lemma ofText_sample {s : Settings} {octets : List UInt8} {document sample : Node} {source : Source}
    {schema : Schema} (hread : Xml.ofOctets? octets = some document)
    (hdoc : Source.ofDocument document = .ok source)
    (hregular : ∀ d, (Forest.ofRoots source.profile.roots).Has d → Regular d)
    (hc : Xsd.compile s source.profile = .ok schema)
    (hsample : (run source.profile).1 = .ok sample) :
    Xml.ofText? sample.document =
      if Xsd.isReserved source.uri then none else some sample.settled := by
  have huri := Profile.uri_ne_empty hdoc
  have hholder := Profile.isLegal_holder (Xml.isLegal_ofOctets hread) hdoc
  obtain ⟨hlegal, hsame⟩ := Xsd.isLegal_compiled hholder hc
  rw [Xsd.filter_uri huri] at hsame
  obtain ⟨root, rest, hroots, rfl⟩ := run_eq huri (fun d hd => (hregular d hd).toNamed) hsample
  have hhas : (Forest.ofRoots source.profile.roots).Has root :=
    Forest.has_of_mem (by rw [hroots]; simp)
  have hmem : root ∈ (source.holder.childrenNamed Profile.elementTag).map Declaration.ofNode := by
    rw [← Profile.roots_profile, hroots]
    simp
  obtain ⟨n, hn, rfl⟩ := List.mem_map.mp hmem
  -- The element that declares the root stands below another one, and so below the limit.
  have hheight : n.height < Xml.depthLimit :=
    Nat.lt_of_lt_of_le (Node.height_lt_of_mem (List.mem_filter.mp hn).1)
      (Nat.le_trans (Node.height_le_of_mem_walk (Profile.holder_mem_walk hdoc))
        (Xml.height_ofOctets hread))
  refine ofText_specimen (fun d hd => (hregular d hd).writable) huri (fun given hgiven => ?_)
    (fun given hgiven => ?_) hhas hheight
  · exact (hlegal.uri given (hsame.trans hgiven)).2.2
  · exact (hlegal.uri given (hsame.trans hgiven)).2.1

/-- The sample of a profile is valid by the schema of the profile: as it was built, as it is laid
out in its text, and as either is without empty texts. Its text is read back as the sample without
empty texts, save where the namespace of the profile is reserved: then it cannot be read at all. -/
theorem sample_valid {s : Settings} {octets : List UInt8} {document sample : Node} {source : Source}
    {schema : Schema} (hread : Xml.ofOctets? octets = some document)
    (hdoc : Source.ofDocument document = .ok source)
    (hs : s.NoCollision (.ofRoots source.profile.roots))
    (hregular : ∀ d, (Forest.ofRoots source.profile.roots).Has d → Regular d)
    (hc : Xsd.compile s source.profile = .ok schema)
    (hsample : (run source.profile).1 = .ok sample) :
    ∃ text, convert document = .ok text ∧
      text = "<?xml version='1.0' encoding='UTF-8'?>\n" ++
        ((sample.laidOut (some 0)).inline ++ "\n") ∧
      Xml.ofText? text = (if Xsd.isReserved source.uri then none else some sample.settled) ∧
      ∀ tree ∈ [sample, sample.laidOut (some 0)],
        IsValid schema tree ∧ IsValid schema tree.settled := by
  have huri := Profile.uri_ne_empty hdoc
  have hcompiled := Xsd.compiled_of_compile hs huri hc
  have hwritten : convert document = .ok sample.document := by
    rw [convert, Profile.profile_ofDocument hdoc]
    dsimp only
    rw [hsample]
    rfl
  have hback := ofText_sample hread hdoc hregular hc hsample
  obtain ⟨root, rest, hroot, rfl⟩ := run_eq huri (fun d hd => (hregular d hd).toNamed) hsample
  have hvalid := isValid_specimen hs hcompiled (sampled_of_has hregular) hroot
    (rootBindings source.profile.uri)
  have hbare := hvalid none
  rw [Node.laidOut_none] at hbare
  refine ⟨_, hwritten, Node.document_eq _, hback, ?_⟩
  simp only [List.forall_mem_cons, List.not_mem_nil, false_implies, implies_true, and_true]
  exact ⟨⟨hbare, hbare.settled⟩, hvalid (some 0), (hvalid (some 0)).settled⟩

/-- A profile of an order of two items or more, with a key of six characters at most. -/
def ordersSource : Source :=
  ⟨some "urn:orders", .element (.plain "DataElements") [] [] [
    .element (.plain Profile.elementTag) [] [⟨.plain "name", "order"⟩] [
      .element (.plain Profile.attributeTag) []
        [⟨.plain "name", "key"⟩, ⟨.plain "required", "true"⟩, ⟨.plain "maxLength", "6"⟩] [],
      .element (.plain Profile.elementTag) []
        [⟨.plain "name", "item"⟩, ⟨.plain "min", "2"⟩, ⟨.plain "max", "9"⟩] []]]⟩

def ordersDocument : Node :=
  .element (.plain "XMLProfile") [] [⟨.plain "namespace", "urn:orders"⟩] [ordersSource.holder]

def item : Declaration := .mk ⟨"item", .string, [], ⟨2, .finite 9⟩, []⟩ []

def order : Declaration :=
  .mk ⟨"order", .string, [], ⟨1, .finite 1⟩, [⟨"key", .string, [.maxLength 6], true⟩]⟩ [item]

def ordersOctets : List UInt8 :=
  ("<XMLProfile namespace='urn:orders'><DataElements><XMLElement name='order'>" ++
    "<XMLAttribute name='key' required='true' maxLength='6'/>" ++
    "<XMLElement name='item' min='2' max='9'/></XMLElement></DataElements></XMLProfile>").toList.map
      fun c => UInt8.ofNat c.toNat

lemma ofOctets_orders : Xml.ofOctets? ordersOctets = some ordersDocument := by decide +kernel

lemma ofDocument_orders : Source.ofDocument ordersDocument = .ok ordersSource := by
  have huri : (Profile.filled? ordersDocument ["namespace"]).map Text.strip =
      some "urn:orders" := by
    decide +kernel
  change Except.ok (⟨(Profile.filled? ordersDocument ["namespace"]).map Text.strip, _⟩ : Source) = _
  rw [huri]
  rfl

lemma eq_of_has_orders {d : Declaration} (h : (Forest.ofRoots ordersSource.profile.roots).Has d) :
    d = order ∨ d = item := by
  have hmem := Forest.mem_nested_of_has h
  change d ∈ [order, item] at hmem
  simpa using hmem

/-- The canonical texts of the two elements with their digests. -/
def ordersTable : List (String × String) := [
  (Xsd.leafText, Xsd.leafDigest),
  ("\x7b\"attributes\":[[\"key\",\"xs:string\",[[\"maxLength\",6]],true]]," ++
      "\"children\":[[\"item\",2,9," ++
      "\"ec3d6220ae2ab709443d931009116010407c6165dcf9b616ba74c69192962c9c\"]]," ++
      "\"facets\":[],\"order\":[\"item\"],\"type\":\"xs:string\"\x7d",
    "680aff146dd0b2f79ae8f26731e0fd50832dd916759442292ceb36f45a1feb7a")]

lemma digest_ordersTable :
    ∀ e ∈ ordersTable, (Settings.standard .strict true).digest e.1 = e.2 := by
  rw [ordersTable, List.forall_mem_cons, List.forall_mem_singleton]
  refine ⟨Xsd.sha256_leafText, ?_⟩
  change Digest.sha256 _ = _
  decide +kernel

lemma standard_orders : Settings.standard .strict true =
    ⟨.strict, true, fun text => (ordersTable.lookup text).getD (Digest.sha256 text)⟩ :=
  (Settings.digest_table ordersTable digest_ordersTable).symm

lemma noCollision_orders :
    (Settings.standard .strict true).NoCollision (.ofRoots ordersSource.profile.roots) :=
  Settings.noCollision_of_table ordersTable digest_ordersTable (by decide) (by decide +kernel)

lemma regular_orders {d : Declaration} (hd : (Forest.ofRoots ordersSource.profile.roots).Has d) :
    Regular d := by
  have hfacets : ∀ fs : List Profile.Facet, fs = [] ∨ fs = [.maxLength 6] → Meetable fs := by
    rintro fs (rfl | rfl)
    · exact ⟨by simp, by simp⟩
    · exact ⟨by simp, by simp⟩
  obtain rfl | rfl := eq_of_has_orders hd
  · refine ⟨⟨by decide, ?_, by decide⟩, ?_, hfacets _ (.inl rfl), ?_⟩
    · exact List.forall_mem_singleton.mpr (by decide)
    · exact List.forall_mem_singleton.mpr (by decide)
    · exact List.forall_mem_singleton.mpr (hfacets _ (.inr rfl))
  · refine ⟨⟨by decide, ?_, by decide⟩, ?_, hfacets _ (.inl rfl), ?_⟩
    · exact fun a ha => absurd ha List.not_mem_nil
    · exact fun a ha => absurd ha List.not_mem_nil
    · exact fun a ha => absurd ha List.not_mem_nil

lemma roots_compile_orders :
    (Xsd.compile (.standard .strict true) ordersSource.profile).toOption.map
    Schema.roots = some [("order", "tns:OrderType")] := by
  rw [standard_orders]
  decide +kernel

lemma inline_run_orders : (run ordersSource.profile).1.toOption.map Node.inline =
    some ("<order xmlns=\"urn:orders\" key=\"sample\"><item>sampleText</item>" ++
      "<item>sampleText</item></order>") := by decide +kernel

/-- The sample of an order has a key and two items, and is read back. -/
theorem order_sample_valid : ∃ (schema : Schema) (sample : Node) (text : String),
    Xml.ofOctets? ordersOctets = some ordersDocument ∧
      Xsd.compile (.standard .strict true) ordersSource.profile = .ok schema ∧
      sample.inline = "<order xmlns=\"urn:orders\" key=\"sample\"><item>sampleText</item>" ++
        "<item>sampleText</item></order>" ∧
      convert ordersDocument = .ok text ∧ Xml.ofText? text = some sample.settled ∧
      IsValid schema sample.settled := by
  obtain ⟨schema, hschema, -⟩ := Option.map_eq_some_iff.mp roots_compile_orders
  obtain ⟨sample, hsample, hinline⟩ := Option.map_eq_some_iff.mp inline_run_orders
  have hcompile := eq_ok_of_toOption hschema
  have hrun := eq_ok_of_toOption hsample
  obtain ⟨text, htext, -, hback, hvalid⟩ := sample_valid ofOctets_orders ofDocument_orders
    noCollision_orders (fun _ => regular_orders) hcompile hrun
  have hfree : Xsd.isReserved ordersSource.uri = false := by decide
  rw [hfree] at hback
  exact ⟨schema, sample, text, ofOctets_orders, hcompile, hinline, htext, hback,
    (hvalid sample (by simp)).2⟩

/-- A profile in the namespace of bindings. -/
def boundOctets : List UInt8 :=
  ("<XMLProfile namespace='http://www.w3.org/2000/xmlns/'><DataElements><XMLElement name='a'/>" ++
    "</DataElements></XMLProfile>").toList.map fun c => UInt8.ofNat c.toNat

example : (Xml.ofOctets? boundOctets).map (fun document => (convert document).toOption.map
    fun text => (text, (Xml.ofText? text).isSome)) =
      some (some ("<?xml version='1.0' encoding='UTF-8'?>\n" ++
        "<a xmlns=\"http://www.w3.org/2000/xmlns/\">sampleText</a>\n", false)) := by decide +kernel

end SchemaLoom.Sample
