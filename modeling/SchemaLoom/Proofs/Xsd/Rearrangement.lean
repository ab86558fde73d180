import Mathlib.Logic.Relation
import SchemaLoom.Proofs.Profile.Document
import SchemaLoom.Proofs.Profile.Semilattice
import SchemaLoom.Proofs.Xsd.Redrafting
import SchemaLoom.Xsd.Render

/-! Where strict mode accepts a document, no declaration of a name differs from another one of that
name. So neither their order counts, as long as names first occur in the same order, nor how often
each one is written. -/
namespace SchemaLoom.Xsd
open Profile (Declaration Facts Siblings Forest Range AttributeUse Source ElementProfile
  nameOf elementTag
  attributeTag firstOccurrences)
open Xml (Node)

/-- The elements among nodes that declare elements. -/
def declaring (content : List Node) : List Node := content.filter (·.localName? == some elementTag)

/-- One step from the content of an element to other content. -/
inductive Edit : List Node → List Node → Prop
  /-- Declarations of elements change places. Their names still first occur in the same order. -/
  | permute {xs ys : List Node} (hperm : (declaring xs).Perm (declaring ys))
    (horder : firstOccurrences ((declaring xs).map nameOf) =
    firstOccurrences ((declaring ys).map nameOf))
    (hrest : xs.filter (·.localName? != some elementTag) =
    ys.filter (·.localName? != some elementTag)) :
    Edit xs ys
  /-- A declaration is written once more, somewhere behind the first one of its name. -/
  | copy {before after : List Node} {n : Node} (hn : n ∈ declaring (before ++ after))
    (hname : nameOf n ∈ (declaring before).map nameOf) :
    Edit (before ++ after) (before ++ n :: after)
  /-- A step is made in one of the declarations. -/
  | inside {before after content content' : List Node} {tag : Xml.QName}
      {bindings : List (String × String)}
    {attributes : List Xml.Attribute} (htag : tag.localPart = elementTag)
    (h : Edit content content') :
    Edit (before ++ .element tag bindings attributes content :: after)
      (before ++ .element tag bindings attributes content' :: after)

/-- What canonical texts say of declarations. -/
def Settings.entries (s : Settings) (ds : List Declaration) : List Entry :=
  (Siblings.byName Declaration.name ds).map s.entry

/-- Declarations diverge as others do, and where they do not, canonical texts say the same of
both. -/
structure Keeps (s : Settings) (ds ds' : List Declaration) : Prop where
  diverges : s.Diverges ds ↔ s.Diverges ds'
  entries : ¬s.Diverges ds → s.entries ds = s.entries ds'

/-- A declaration may stand for another one. -/
structure Replaces (s : Settings) (d d' : Declaration) : Prop where
  name : d.name = d'.name
  range : d.range = d'.range
  diverges : s.Diverges d.children ↔ s.Diverges d'.children
  fingerprint : ¬s.Diverges d.children → s.fingerprint d = s.fingerprint d'

section
variable {s : Settings} {ds ds' : List Declaration}

lemma Keeps.refl (ds : List Declaration) : Keeps s ds ds := ⟨.rfl, fun _ => rfl⟩

lemma Keeps.symm (h : Keeps s ds ds') : Keeps s ds' ds :=
  ⟨h.diverges.symm, fun hd => (h.entries (mt h.diverges.mp hd)).symm⟩

lemma Keeps.trans {ds'' : List Declaration} (h : Keeps s ds ds') (h' : Keeps s ds' ds'') :
    Keeps s ds ds'' :=
  ⟨h.diverges.trans h'.diverges, fun hd => (h.entries hd).trans (h'.entries (mt h.diverges.mpr hd))⟩

lemma Replaces.refl (d : Declaration) : Replaces s d d := ⟨rfl, rfl, .rfl, fun _ => rfl⟩

lemma Replaces.symm {d d' : Declaration} (h : Replaces s d d') : Replaces s d' d :=
  ⟨h.name.symm, h.range.symm, h.diverges.symm, fun hd => (h.fingerprint (mt h.diverges.mp hd)).symm⟩

/-- Same-named declarations that do not diverge have one fingerprint. -/
lemma fingerprint_eq_of_not_diverges (h : ¬s.Diverges ds) {a b : Declaration}
    (ha : a ∈ ds) (hb : b ∈ ds) (hname : a.name = b.name) : s.fingerprint a = s.fingerprint b := by
  by_contra hne
  exact h (.here ha hb hname hne)

lemma Settings.Diverges.of_subset (h : s.Diverges ds) (hsub : ds ⊆ ds') : s.Diverges ds' := by
  cases h with
  | here ha hb hname hne => exact .here (hsub ha) (hsub hb) hname hne
  | inside hd h => exact .inside (hsub hd) h

lemma Replaces.diverges_of (h : List.Forall₂ (Replaces s) ds ds') (hd : s.Diverges ds) :
    s.Diverges ds' := by
  have hinside {d d' : Declaration} (hd' : d' ∈ ds') (hr : Replaces s d d')
      (h : s.Diverges d.children) :
      s.Diverges ds' := .inside hd' (hr.diverges.mp h)
  cases hd with
  | inside hd h' =>
    obtain ⟨d', hd', hr⟩ := exists_of_mem_left h hd
    exact hinside hd' hr h'
  | @here _ a b ha hb hname hne =>
    obtain ⟨a', ha', har⟩ := exists_of_mem_left h ha
    obtain ⟨b', hb', hbr⟩ := exists_of_mem_left h hb
    by_cases hada : s.Diverges a.children
    · exact hinside ha' har hada
    by_cases hbdb : s.Diverges b.children
    · exact hinside hb' hbr hbdb
    refine .here ha' hb' (har.name.symm.trans (hname.trans hbr.name)) ?_
    rwa [← har.fingerprint hada, ← hbr.fingerprint hbdb]

/-- What canonical texts take of a declaration. -/
def Settings.keyOf (s : Settings) (d : Declaration) : String × Range × String :=
  (d.name, d.range, s.fingerprint d)

lemma entries_eq_of_keys (h : ds.map s.keyOf = ds'.map s.keyOf) : s.entries ds = s.entries ds' := by
  have hentries (ds : List Declaration) :
      s.entries ds = (Siblings.byName Prod.fst (ds.map s.keyOf)).map
      fun g => ⟨g.name, g.range (·.2.1), g.first.2.2⟩ := by
    rw [Siblings.byName_map, List.map_map, Settings.entries]
    refine List.map_congr_left fun g _ => ?_
    simp only [Function.comp_apply, Siblings.map_name, Siblings.map_range, Siblings.map_first]
    rfl
  rw [hentries, hentries, h]

/-- Declarations may be replaced one by one. -/
theorem keeps_of_replaces (h : List.Forall₂ (Replaces s) ds ds') : Keeps s ds ds' := by
  have hflip : List.Forall₂ (Replaces s) ds' ds := (h.imp fun _ _ hr => hr.symm).flip
  refine ⟨⟨Replaces.diverges_of h, Replaces.diverges_of hflip⟩, fun hdiv => entries_eq_of_keys ?_⟩
  have hinside : ∀ d ∈ ds, ¬s.Diverges d.children := fun d hd h' => hdiv (.inside hd h')
  refine (map_eq_map_of_forall₂ (((List.forall₂_and_left _ _).mpr ⟨hinside, h⟩).imp
    fun d d' hr => ?_)).symm
  rw [Settings.keyOf, Settings.keyOf, hr.2.name, hr.2.range, hr.2.fingerprint hr.1]

/-- Of a group it counts which declarations are in it, and what the first one is. -/
lemma entry_eq_of_same_members (hmem : ∀ d, d ∈ ds ↔ d ∈ ds') {g k : Siblings Declaration}
    (hg : g ∈ Siblings.byName Declaration.name ds) (hk : k ∈ Siblings.byName Declaration.name ds')
    (hname : g.name = k.name) (hfirst : s.fingerprint g.first = s.fingerprint k.first) :
    s.entry g = s.entry k := by
  have hrange : g.range Declaration.range = k.range Declaration.range := by
    refine Siblings.range_congr fun r => ?_
    rw [(Siblings.mem_byName.mp hg).2, (Siblings.mem_byName.mp hk).2, hname]
    simp only [List.mem_map, List.mem_filter, hmem]
  rw [Settings.entry, Settings.entry, hname, hrange, hfirst]

/-- Of declarations it counts which ones there are and in which order their names first occur. -/
theorem keeps_of_same_members (hmem : ∀ d, d ∈ ds ↔ d ∈ ds')
    (horder : firstOccurrences (ds.map Declaration.name) =
    firstOccurrences (ds'.map Declaration.name)) :
    Keeps s ds ds' := by
  have hsub : ds ⊆ ds' := fun d => (hmem d).mp
  have hsub' : ds' ⊆ ds := fun d => (hmem d).mpr
  refine ⟨⟨fun h => h.of_subset hsub, fun h => h.of_subset hsub'⟩, fun hdiv => ?_⟩
  have hnames : (Siblings.byName Declaration.name ds).map Siblings.name =
      (Siblings.byName Declaration.name ds').map Siblings.name := by
    rw [Siblings.names_byName, Siblings.names_byName, horder]
  refine map_eq_map_of_keys hnames fun g hg k hk hname =>
    entry_eq_of_same_members hmem hg hk hname ?_
  refine fingerprint_eq_of_not_diverges hdiv (Siblings.first_mem hg)
    (hsub' (Siblings.first_mem hk)) ?_
  rw [Siblings.name_first hg, Siblings.name_first hk, hname]

/-! ## Steps on documents -/

lemma names_declaring (content : List Node) :
    (Declaration.ofNodes content).map Declaration.name = (declaring content).map nameOf := by
  rw [Profile.ofNodes_eq, List.map_map]
  exact List.map_congr_left fun n _ => Profile.name_ofNode n

lemma ofNodes_append (xs ys : List Node) :
    Declaration.ofNodes (xs ++ ys) = Declaration.ofNodes xs ++ Declaration.ofNodes ys := by
  rw [Profile.ofNodes_eq, Profile.ofNodes_eq, Profile.ofNodes_eq, List.filter_append,
    List.map_append]

lemma ofNodes_element {tag : Xml.QName} (htag : tag.localPart = elementTag)
    (bindings : List (String × String)) (attributes : List Xml.Attribute)
    (content after : List Node) :
    Declaration.ofNodes (.element tag bindings attributes content :: after) =
      .mk (.ofNode (.element tag bindings attributes content)) (Declaration.ofNodes content) ::
        Declaration.ofNodes after := by
  have hdeclares : (Node.element tag bindings attributes content).localName? = some elementTag :=
    congrArg some htag
  rw [Declaration.ofNodes, if_pos (by rw [hdeclares]; exact beq_self_eq_true _), Declaration.ofNode]

lemma not_attribute_of_element {n : Node} (h : n.localName? = some elementTag) :
    (n.localName? == some attributeTag) = false := by
  rw [h]
  decide

/-- A step leaves the declarations of attributes as they are. -/
lemma Edit.attributes {xs ys : List Node} (h : Edit xs ys) :
    xs.filter (·.localName? == some attributeTag) =
    ys.filter (·.localName? == some attributeTag) := by
  cases h with
  | permute _ _ hrest =>
    have hother (zs : List Node) : zs.filter (·.localName? == some attributeTag) =
        (zs.filter (·.localName? != some elementTag)).filter
          (·.localName? == some attributeTag) := by
      rw [List.filter_filter]
      refine List.filter_congr fun n _ => ?_
      by_cases hn : n.localName? = some elementTag
      · rw [not_attribute_of_element hn, Bool.false_and]
      · simp [hn]
    rw [hother, hrest, ← hother]
  | copy hn _ =>
    have hskip := not_attribute_of_element (by simpa using (List.mem_filter.mp hn).2)
    rw [List.filter_append, List.filter_append, List.filter_cons_of_neg (by rw [hskip]; decide)]
  | @inside _ _ _ _ tag bindings attributes htag _ =>
    have hskip (content : List Node) :=
      not_attribute_of_element (n := .element tag bindings attributes content) (congrArg some htag)
    rw [List.filter_append, List.filter_append, List.filter_cons_of_neg (by rw [hskip]; decide),
      List.filter_cons_of_neg (by rw [hskip]; decide)]

/-- Of the content of an element its facts show the declarations of attributes only. -/
lemma facts_of_attributes {xs ys : List Node}
    (h : (xs.filter (·.localName? == some attributeTag)).map AttributeUse.ofNode =
      (ys.filter (·.localName? == some attributeTag)).map AttributeUse.ofNode) (tag : Xml.QName)
    (bindings : List (String × String)) (attributes : List Xml.Attribute) :
    Facts.ofNode (.element tag bindings attributes xs) =
    .ofNode (.element tag bindings attributes ys) := by
  rw [Facts.ofNode, Facts.ofNode, Facts.mk.injEq]
  exact ⟨rfl, rfl, rfl, rfl, h⟩

/-- A step keeps what strict mode sees of declarations. -/
theorem Edit.keeps {xs ys : List Node} (h : Edit xs ys) :
    Keeps s (Declaration.ofNodes xs) (Declaration.ofNodes ys) := by
  induction h with
  | permute hperm horder _ =>
    refine keeps_of_same_members (fun d => ?_) ?_
    · rw [Profile.ofNodes_eq, Profile.ofNodes_eq]
      exact (hperm.map _).mem_iff
    · rwa [names_declaring, names_declaring]
  | @copy before after n hn hname =>
    have hdeclares : (n.localName? == some elementTag) = true := (List.mem_filter.mp hn).2
    have hmem : Declaration.ofNode n ∈ Declaration.ofNodes before ++ Declaration.ofNodes after := by
      rw [← ofNodes_append, Profile.ofNodes_eq]
      exact List.mem_map_of_mem hn
    rw [ofNodes_append, ofNodes_append, Declaration.ofNodes, if_pos hdeclares]
    refine keeps_of_same_members (fun d => ?_) ?_
    · rw [List.mem_append, List.mem_append, List.mem_cons]
      rw [List.mem_append] at hmem
      constructor
      · exact fun h => h.imp_right .inr
      · rintro (h | rfl | h)
        · exact .inl h
        · exact hmem
        · exact .inr h
    · rw [List.map_append, List.map_append, List.map_cons, Profile.firstOccurrences_again]
      rwa [names_declaring, Profile.name_ofNode]
  | @inside before after content content' tag bindings attributes htag h ih =>
    rw [ofNodes_append, ofNodes_append, ofNodes_element htag, ofNodes_element htag]
    refine keeps_of_replaces (List.rel_append (List.forall₂_same.mpr fun d _ => .refl d)
      (.cons ?_ (List.forall₂_same.mpr fun d _ => .refl d)))
    rw [facts_of_attributes (congrArg (List.map AttributeUse.ofNode) h.attributes)]
    refine ⟨rfl, rfl, ih.diverges, fun hdiv => ?_⟩
    have hentries := ih.entries hdiv
    rw [Settings.fingerprint, Settings.fingerprint, Settings.textOf_eq, Settings.textOf_eq]
    exact congrArg (fun entries => s.digest (signature _ _ entries)) hentries

lemma keeps_of_edits {xs ys : List Node} (h : Relation.ReflTransGen Edit xs ys) :
    Keeps s (Declaration.ofNodes xs) (Declaration.ofNodes ys) := by
  induction h with
  | refl => exact .refl _
  | tail _ h ih => exact ih.trans h.keeps

end

lemma roots_profile_eq (source : Source) :
    source.profile.roots = Declaration.ofNodes source.holder.content := by
  rw [Profile.roots_profile, Profile.ofNodes_eq]
  rfl

/-- Profiles of one namespace whose root declarations are kept compile to the same schemas in strict
mode. -/
lemma compile_eq_of_keeps {s : Settings} {p p' : ElementProfile} (hstrict : s.mode = .strict)
    (huri : p.uri = p'.uri) (hs : s.NoCollision (.ofRoots (p.roots ++ p'.roots)))
    (hkeeps : Keeps s p.roots p'.roots) {schema : Schema} (h : compile s p = .ok schema) :
    compile s p' = .ok schema := by
  rw [compile_eq_ok_iff (hs.of_subset (List.subset_append_left _ _))] at h
  rw [compile_eq_ok_iff (hs.of_subset (List.subset_append_right _ _))]
  obtain ⟨haccepts, hdraft⟩ := h
  have hdiv := haccepts hstrict
  refine ⟨fun _ => mt hkeeps.diverges.mpr hdiv, ?_⟩
  have hsame := draft_congr hs huri (fun d hd => Forest.has_of_mem (List.mem_append_left _ hd))
    (fun d hd => Forest.has_of_mem (List.mem_append_right _ hd)) (hkeeps.entries hdiv)
  rw [← hsame, hdraft]

lemma convert_eq_ok_iff {s : Settings} {document : Node} {source : Source}
    (h : Source.ofDocument document = .ok source) {text : String} : convert s document = .ok text ↔
      ∃ schema, compile s source.profile = .ok schema ∧ schema.text = text := by
  rw [convert, Profile.profile_ofDocument h]
  change (compile s source.profile).map Schema.text = .ok text ↔ _
  cases compile s source.profile <;> simp [Except.map]

/-- In strict mode a schema does not depend on the order of declarations, as long as names first
occur in the same order, nor on how often a declaration is repeated. -/
theorem strict_schema_of_edits {s : Settings} (hstrict : s.mode = .strict)
    {document document' : Node} {source source' : Source}
    (hdoc : Source.ofDocument document = .ok source)
    (hdoc' : Source.ofDocument document' = .ok source') (huri : source.uri = source'.uri)
    (hedits : Relation.ReflTransGen Edit source.holder.content source'.holder.content)
    (hs : s.NoCollision (.ofRoots (source.profile.roots ++ source'.profile.roots))) :
    (∀ schema, compile s source.profile = .ok schema ↔ compile s source'.profile = .ok schema) ∧
      ∀ text, convert s document = .ok text ↔ convert s document' = .ok text := by
  have hkeeps : Keeps s source.profile.roots source'.profile.roots := by
    rw [roots_profile_eq, roots_profile_eq]
    exact keeps_of_edits hedits
  have hswap : source'.profile.roots ++ source.profile.roots ⊆ source.profile.roots ++
      source'.profile.roots :=
    List.perm_append_comm.subset
  have hs' := hs.of_subset hswap
  have hcompile (schema : Schema) :
      compile s source.profile = .ok schema ↔ compile s source'.profile = .ok schema := by
    constructor
    · exact compile_eq_of_keeps hstrict huri hs hkeeps
    · exact compile_eq_of_keeps hstrict huri.symm hs' hkeeps.symm
  refine ⟨hcompile, fun text => ?_⟩
  simp only [convert_eq_ok_iff hdoc, convert_eq_ok_iff hdoc', hcompile]

def fewItems : Node :=
  .element (.plain elementTag) [] [⟨.plain "name", "item"⟩, ⟨.plain "minOccurs", "0"⟩] []

def manyItems : Node :=
  .element (.plain elementTag) [] [⟨.plain "name", "item"⟩, ⟨.plain "maxOccurs", "5"⟩] []

def orderOf (content : List Node) : Node :=
  .element (.plain elementTag) [] [⟨.plain "name", "order"⟩] content

def orderSource (content : List Node) : Source :=
  ⟨none, .element (.plain "DataElements") [] [] [orderOf content]⟩

def orderDocument (content : List Node) : Node :=
  .element (.plain "XMLProfile") [] [] [(orderSource content).holder]

/-- An order with items in two declarations. -/
def written : List Node := [fewItems, manyItems]

/-- The items the other way round, and one of them twice. -/
def rewritten : List Node := [manyItems, fewItems, fewItems]

lemma ofDocument_order (content : List Node) :
    Source.ofDocument (orderDocument content) = .ok (orderSource content) := rfl

lemma edits_rewritten : Relation.ReflTransGen Edit (orderSource written).holder.content
    (orderSource rewritten).holder.content := by
  have hpermute : Edit written [manyItems, fewItems] :=
    .permute (List.reverse_perm written).symm (by decide +kernel) rfl
  have hcopy : Edit ([manyItems, fewItems] ++ []) rewritten :=
    .copy (by simp [declaring, fewItems, Node.localName?, Node.tag?, Xml.QName.plain])
      (by decide +kernel)
  have hinside {xs ys : List Node} (h : Edit xs ys) :
      Edit ([] ++ orderOf xs :: []) ([] ++ orderOf ys :: []) :=
    .inside rfl h
  exact .tail (.single (hinside hpermute)) (hinside hcopy)

/-- The canonical text of the order. -/
def orderText : String :=
  "\x7b\"attributes\":[],\"children\":[[\"item\",0,5,\"" ++ leafDigest ++
    "\"]],\"facets\":[],\"order\":[\"item\"],\"type\":\"xs:string\"\x7d"

def orderDigest : String := "1ec29f774ea669808a2dd2eaa34b7a308a4ada775b61d31fa51ed3b7fa57dc6e"

lemma sha256_orderText : Digest.sha256 orderText = orderDigest := by decide +kernel

def orderTable : List (String × String) := [(leafText, leafDigest), (orderText, orderDigest)]

lemma digest_orderTable : ∀ e ∈ orderTable, (Settings.standard .strict true).digest e.1 = e.2 := by
  simpa [orderTable, Settings.standard] using ⟨sha256_leafText, sha256_orderText⟩

lemma noCollision_orders : (Settings.standard .strict true).NoCollision
    (.ofRoots ((orderSource written).profile.roots ++ (orderSource rewritten).profile.roots)) :=
  Settings.noCollision_of_table orderTable digest_orderTable (by decide) (by decide +kernel)

def orderSchema : Schema :=
  ⟨none, [("order", "OrderType")],
    [⟨"OrderType", orderDigest, .sequence [⟨"item", ⟨0, .finite 5⟩, .builtin .string⟩] []⟩]⟩

lemma compile_written : compile (.standard .strict true) (orderSource written).profile =
    .ok orderSchema := by
  rw [← Settings.digest_table orderTable digest_orderTable]
  decide +kernel

/-- Both documents have the same schema, in which there are at most five items. -/
theorem rewritten_compiled_as_written :
    Source.ofDocument (orderDocument written) = .ok (orderSource written) ∧
    Source.ofDocument (orderDocument rewritten) = .ok (orderSource rewritten) ∧
    Relation.ReflTransGen Edit (orderSource written).holder.content
    (orderSource rewritten).holder.content ∧
    compile (.standard .strict true) (orderSource written).profile = .ok orderSchema ∧
    compile (.standard .strict true) (orderSource rewritten).profile = .ok orderSchema := by
  have hsame := strict_schema_of_edits rfl (ofDocument_order written)
      (ofDocument_order rewritten) rfl
    edits_rewritten noCollision_orders
  exact ⟨ofDocument_order written, ofDocument_order rewritten, edits_rewritten, compile_written,
    (hsame.1 _).mp compile_written⟩

end SchemaLoom.Xsd
