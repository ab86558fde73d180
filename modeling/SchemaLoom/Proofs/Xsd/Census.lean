import SchemaLoom.Proofs.Profile.Document
import SchemaLoom.Proofs.Xsd.Drafting
import SchemaLoom.Proofs.Xsd.Ledger
import SchemaLoom.Proofs.Xsd.Session
import SchemaLoom.Proofs.Xsd.Strictness

/-! Which types a schema has: one for each fingerprint among the declarations that a walk visits, in
the order in which their first declarations are left, with the names that these prefer. -/
namespace SchemaLoom.Xsd
open Profile (Declaration Siblings Forest Trail Source Visit placedGroups nextOf nextVisits
  walks before behind
  preorder postorder elementTag)
open Xml (Node)

/-- Wherever it succeeds, a draft keeps the ledger of what is visited. -/
def Keeping (s : Settings) (F : Forest) (pending : List String) {α : Type} (p : Drafting α)
    (visits : List Visit) : Prop :=
  ∀ visited done r a r', Ledger s F visited done pending r →
    ((visited ++ walks before visits).map Prod.fst).Nodup → p.run r = .ok (a, r') →
      Ledger s F (visited ++ walks before visits) (done ++ walks behind visits) pending r'

section
variable {s : Settings} {F : Forest} {pending : List String} {α β γ : Type}

namespace Keeping

theorem pure (a : α) : Keeping s F pending (pure a : Drafting α) [] := by
  intro visited done r a r' h _ hrun
  cases hrun
  simpa using h

theorem bind {p : Drafting α} {k : α → Drafting β} {visits visits' : List Visit}
    (hp : Keeping s F pending p visits) (hk : ∀ a, Keeping s F pending (k a) visits') :
    Keeping s F pending (p >>= k) (visits ++ visits') := by
  intro visited done r b r'' h hnodup hrun
  obtain ⟨a, r', hp', hk'⟩ := drafting_bind_eq_ok hrun
  rw [Profile.walks_append, ← List.append_assoc] at hnodup ⊢
  rw [Profile.walks_append, ← List.append_assoc]
  have hfirst := hnodup
  rw [List.map_append] at hfirst
  exact hk a _ _ r' b r'' (hp _ _ r a r' h (List.nodup_append.mp hfirst).1 hp') hnodup hk'

/-- A step that leaves the registry alone. -/
theorem skip {p : Drafting α} {k : α → Drafting β} {visits : List Visit}
    (hp : ∀ r a r', p.run r = .ok (a, r') → r' = r) (hk : ∀ a, Keeping s F pending (k a) visits) :
    Keeping s F pending (p >>= k) visits := by
  intro visited done r b r'' h hnodup hrun
  obtain ⟨a, r', hp', hk'⟩ := drafting_bind_eq_ok hrun
  rw [hp r a r' hp'] at hk'
  exact hk a _ _ r b r'' h hnodup hk'

theorem mapM {xs : List α} {f : α → Drafting β} {visits : α → List Visit}
    (h : ∀ x ∈ xs, Keeping s F pending (f x) (visits x)) :
    Keeping s F pending (xs.mapM f) (xs.flatMap visits) := by
  induction xs with
  | nil => exact pure []
  | cons x xs ih =>
    rw [List.mapM_cons, List.flatMap_cons]
    refine bind (h x (by simp)) fun b => ?_
    rw [← List.append_nil (xs.flatMap visits)]
    exact bind (ih fun y hy => h y (by simp [hy])) fun bs => pure (b :: bs)

end Keeping

/-- A declaration stands inside of all whose types are being made. -/
def Inside (s : Settings) (F : Forest) (pending : List String) (d : Declaration) : Prop :=
  ∀ digest ∈ pending, ∃ a, F.Has a ∧ s.fingerprint a = digest ∧ a.Leads d

lemma Inside.not_mem (hs : s.NoCollision F) {d : Declaration} (h : Inside s F pending d) :
    s.fingerprint d ∉ pending := by
  intro hmem
  obtain ⟨a, ha, hfp, hlead⟩ := h _ hmem
  exact Settings.fingerprint_ne_of_leads hs d a ha hlead hfp.symm

lemma Inside.trans {d e : Declaration} (h : Inside s F pending d) (hlead : d.Leads e) :
    Inside s F pending e := fun digest hdigest => by
  obtain ⟨a, ha, hfp, had⟩ := h digest hdigest
  exact ⟨a, ha, hfp, had.trans hlead⟩

lemma children_eq_nil_of_fingerprint_eq (hs : s.NoCollision F) {a b : Declaration} (ha : F.Has a)
    (hb : F.Has b) (hab : s.fingerprint a = s.fingerprint b) :
    a.children = [] ↔ b.children = [] := by
  obtain ⟨-, -, -, he, -⟩ := Settings.parts_of_textOf_eq (hs a b ha hb hab)
  exact children_eq_nil_of_entries he

/-- What a declaration leads to has a match in every declaration of the same fingerprint. -/
lemma exists_leads_of_fingerprint_eq (hs : s.NoCollision F) {a e : Declaration}
    (hlead : a.Leads e) :
    ∀ b, F.Has a → F.Has b → s.fingerprint a = s.fingerprint b →
      ∃ e', b.Leads e' ∧ s.fingerprint e' = s.fingerprint e ∧
      (e'.children = [] ↔ e.children = []) := by
  induction hlead with
  | here hg =>
    intro b ha hb hab
    obtain ⟨k, hk, hentry⟩ := Settings.exists_group_of_fingerprint_eq hs ha hb hab hg
    have hfp := congrArg Entry.digest hentry
    exact ⟨k.first, .here hk, hfp,
      children_eq_nil_of_fingerprint_eq hs (hb.first hk) (ha.first hg) hfp⟩
  | inside hg _ ih =>
    intro b ha hb hab
    obtain ⟨k, hk, hentry⟩ := Settings.exists_group_of_fingerprint_eq hs ha hb hab hg
    obtain ⟨e', hlead, he'⟩ :=
      ih k.first (ha.first hg) (hb.first hk) (congrArg Entry.digest hentry).symm
    exact ⟨e', .inside hk hlead, he'⟩

/-! ## Types, bodies and particles -/

/-- After the visits below a declaration the types of all that it leads to are there. -/
lemma Ledger.below {visited done : List Visit} {r : Registry} {path : Trail} {d : Declaration}
    (hs : s.NoCollision F) (hd : F.Has d) (hinside : Inside s F pending d)
    (h : Ledger s F visited done (s.fingerprint d :: pending) r)
    (hnext : nextVisits path d ⊆ visited) {e : Declaration} (hlead : d.Leads e)
    (hne : e.children ≠ []) : s.fingerprint e ∈ r.digests := by
  obtain ⟨g, hg, he⟩ := hlead.step
  have hfirst : d.Leads g.first := .here hg
  have hnonempty : g.first.children ≠ [] := by
    obtain rfl | he := he
    · exact hne
    · obtain ⟨k, hk, -⟩ := he.step
      exact List.ne_nil_of_mem (Declaration.first_mem_children hk)
  obtain ⟨v, hv, hvg⟩ := Profile.exists_nextVisit path hg hnonempty
  have hthere : s.fingerprint g.first ∈ r.digests := by
    obtain hthere | hpending := hvg ▸ h.known v (hnext hv)
    · exact hthere
    · obtain hself | hpending := List.mem_cons.mp hpending
      · exact absurd hself (Settings.fingerprint_ne_of_leads hs _ d hd hfirst)
      · exact absurd hpending ((hinside.trans hfirst).not_mem hs)
  obtain rfl | he := he
  · exact hthere
  · exact h.closed _ (hd.first hg) hthere e he hne

/-- The type of a declaration is there already, or is made with all types that it needs. -/
lemma keeping_draftType (hs : s.NoCollision F) {path : Trail} {d : Declaration}
    (hd : F.at? path = some d) (hinside : Inside s F pending d) {body : String → Drafting TypeBody}
    (hbody : ∀ name, Keeping s F (s.fingerprint d :: pending) (body name) (nextVisits path d)) :
    Keeping s F pending (draftType (s.fingerprint d) (typeNameBase d.name) body) [(path, d)] := by
  intro visited done r name r' h hnodup hrun
  have hout := hinside.not_mem hs
  have hhas : F.Has d := ⟨path, hd⟩
  have hwalks (arrange : Visit → List Visit → List Visit) :
      walks arrange [(path, d)] = d.walk arrange path :=
    List.flatMap_singleton _ _
  rw [hwalks] at hnodup ⊢
  rw [hwalks]
  have htrail : ∀ u ∈ d.walk before path, u.1 ∉ visited.map Prod.fst := by
    rw [List.map_append, List.nodup_append] at hnodup
    exact fun u hu hmem => hnodup.2.2 _ hmem _ (List.mem_map_of_mem hu) rfl
  obtain ⟨t, hfind, -, rfl⟩ | ⟨hfind, -, content, r₁, hcontent, rfl⟩ := draftType_cases hrun
  · obtain ⟨ht, hdigest⟩ := Registry.find_eq_some hfind
    have hthere : s.fingerprint d ∈ r'.digests := hdigest ▸ List.mem_map_of_mem ht
    have hwalk := Profile.mem_walk_congr Profile.arranges_behind Profile.arranges_before
    refine h.skip (fun u => (hwalk u d path).mp) (fun u hu => ?_) htrail
    obtain rfl | ⟨hlead, hne⟩ := Profile.leads_of_mem_walk Profile.arranges_before hu
    · exact hthere
    · exact h.closed d hhas hthere _ hlead hne
  · have hnew : s.fingerprint d ∉ r.digests := fun hmem => by
      obtain ⟨t, ht, hdigest⟩ := List.mem_map.mp hmem
      exact Registry.find_eq_none.mp hfind t ht hdigest
    have hself := Profile.mem_walk_self Profile.arranges_before path d
    obtain ⟨hname, hentered⟩ := h.enter (v := (path, d)) hnew hout (htrail _ hself)
    -- The visit is the first of its fingerprint, and what is visited later does not change that.
    have hmem : (path, d) ∈ visited ++ [(path, d)] := by simp
    have hfirst := Settings.isFirst_new (h.not_visited (v := (path, d)) hnew hout)
    rw [← Settings.isFirst_append (List.mem_map_of_mem hmem)
      (walks before (nextVisits path d))] at hfirst
    rw [Profile.walk_eq, before, List.append_cons] at hnodup
    have hbelow := hbody _ _ _ _ _ _ hentered hnodup hcontent
    have hleft := hbelow.leave (List.mem_append_left _ hmem) hfirst hout
        (fun a ha hfp e hlead hne => ?_) content
    · rw [Settings.typeName, Settings.rank_append hmem, ← Settings.typeName, ← hname] at hleft
      rw [Profile.walk_eq, Profile.walk_eq, before, behind, List.append_cons, ← List.append_assoc]
      exact hleft
    · obtain ⟨e', hlead', hfp', hchildren⟩ := exists_leads_of_fingerprint_eq hs hlead d ha hhas hfp
      have hnext :=
        List.Subset.trans (Profile.subset_walks Profile.arranges_before (nextVisits path d))
        (List.subset_append_right (visited ++ [(path, d)]) _)
      rw [← hfp']
      exact hbelow.below hs hhas hinside hnext hlead' (mt hchildren.mp hne)

lemma keeping_draftParticle {qualified : Bool} {path : Trail} {d : Declaration} {g : Siblings Visit}
    (hg : g ∈ placedGroups path d.children)
    (htype : Keeping s F pending (draftType (s.fingerprint g.first.2) (typeNameBase g.first.2.name)
      (s.draftBody qualified g.first.2)) [g.first]) :
    Keeping s F pending (s.draftParticle qualified ((g.map Prod.snd).map (s.drafted qualified)))
    (nextOf g) := by
  have hname : g.first.2.name = g.name := Siblings.name_first hg
  rw [hname] at htype
  rw [Settings.draftParticle_eq, nextOf]
  change Keeping s F pending (if g.first.2.children.isEmpty = true then _ else _) _
  split
  · exact .pure _
  · exact .bind htype fun name => .pure _

/-- The type of a declaration is made with the types of all that is visited from it on. -/
theorem keeping_type (hs : s.NoCollision F) (qualified : Bool) : ∀ (d : Declaration) (path : Trail),
    F.at? path = some d → ∀ pending, Inside s F pending d → Keeping s F pending
      (draftType (s.fingerprint d) (typeNameBase d.name) (s.draftBody qualified d))
      [(path, d)] := by
  intro d
  induction d using Declaration.induction with
  | h f children ih =>
    intro path hd pending hinside
    refine keeping_draftType hs hd hinside fun name => ?_
    rw [Settings.draftBody_eq]
    refine .skip (fun r u r' hrun => eq_of_run_legal hrun) fun _ => ?_
    have hgroups := Profile.placedGroups_snd path (.mk f children)
    split
    · rename_i hempty
      rw [List.isEmpty_iff, ← hgroups, List.map_eq_nil_iff] at hempty
      rw [nextVisits, hempty]
      exact .pure _
    · rw [← hgroups, List.mapM_map, ← List.append_nil (nextVisits path _)]
      refine .bind (.mapM fun g hg => ?_) fun ps => .pure _
      have hplaced := Siblings.first_mem hg
      have hlead : (Declaration.mk f children).Leads g.first.2 :=
        .here (hgroups ▸ List.mem_map_of_mem hg)
      refine keeping_draftParticle hg (ih _ (Profile.mem_of_mem_placed hplaced) _
        (Forest.at_of_mem_placed hd hplaced) _ fun digest hdigest => ?_)
      obtain rfl | hdigest := List.mem_cons.mp hdigest
      · exact ⟨_, ⟨path, hd⟩, rfl, hlead⟩
      · exact hinside.trans hlead digest hdigest

/-! ## The types of a schema -/

lemma keeping_roots {roots : List Declaration} (hs : s.NoCollision (.ofRoots roots))
    (qualified : Bool) :
    Keeping s (.ofRoots roots) [] ((Siblings.byName Declaration.name roots).mapM
    (s.draftRoot qualified))
      (Profile.rootVisits roots) := by
  rw [← Profile.placedGroups_map [] roots, List.mapM_map, Profile.rootVisits, List.map_eq_flatMap]
  refine .mapM fun g hg => ?_
  have hname : g.first.2.name = g.name := Siblings.name_first hg
  have hplace := Forest.at_ofRoots_of_mem_placed (Siblings.first_mem hg)
  have htype := keeping_type hs qualified g.first.2 g.first.1 hplace [] fun _ h =>
    absurd h List.not_mem_nil
  rw [hname] at htype
  exact .bind htype fun name => .pure _

lemma ledger_of_draft {p : Profile.ElementProfile} (hs : s.NoCollision (.ofRoots p.roots))
    {schema : Schema} (h : s.draft p = .ok schema) : ∃ r, schema.types = r.types ∧
      Ledger s (.ofRoots p.roots) (preorder p.roots) (postorder p.roots) [] r := by
  obtain ⟨⟨declared, r⟩, hdraft, hmake⟩ := bind_eq_ok h
  refine ⟨r, by rw [make_eq_ok hmake], ?_⟩
  exact keeping_roots hs _ [] [] .empty declared r (ledger_empty s _)
    (Profile.nodup_preorder p.roots) hdraft

/-- Which types a schema has, and in which order and under which names. -/
structure Census (s : Settings) (roots : List Declaration) (schema : Schema) : Prop where
  /-- There are no two types of one fingerprint. -/
  distinct : (schema.types.map TypeDefinition.digest).Nodup
  /-- There is a type for each fingerprint that is visited, and none else. -/
  complete : ∀ digest, digest ∈ schema.types.map TypeDefinition.digest ↔
    ∃ v ∈ preorder roots, s.fingerprint v.2 = digest
  /-- Types come as their first visits are left, and are named as these are met. -/
  types : schema.types.map (fun t => (t.digest, t.name)) =
    s.typesOf (preorder roots) (postorder roots)
  /-- Every type is referred to by a root or by a type. -/
  referenced : ∀ t ∈ schema.types,
    (∃ root ∈ schema.roots, root.2 = qualify schema.uri.isSome t.name) ∨
    ∃ u ∈ schema.types, qualify schema.uri.isSome t.name ∈ u.body.references

/-- A declaration refers to the types of those visited right after it. -/
lemma references_of_nextVisit {schema : Schema} (hs : s.NoCollision F)
    (hbuilt : Built schema.uri.isSome s F schema.types) {t u : TypeDefinition}
    (ht : t ∈ schema.types) (hu : u ∈ schema.types) {path : Trail} {d : Declaration} (hd : F.Has d)
    (hud : u.digest = s.fingerprint d) {v : Visit} (hv : v ∈ nextVisits path d)
    (htv : t.digest = s.fingerprint v.2) :
    qualify schema.uri.isSome t.name ∈ u.body.references := by
  have hfits := hbuilt.fits hs hu hd hud
  obtain ⟨k, hk, rfl, hne⟩ := Profile.mem_nextVisits.mp hv
  have hgroup : k.map Prod.snd ∈ d.groups :=
    Profile.placedGroups_snd path d ▸ List.mem_map_of_mem hk
  obtain ⟨ps, hbody, p, hp, hparticle⟩ := hfits.exists_particle hgroup
  rw [hbody]
  have hcontent := hparticle.content
  have hmem : ∀ ref ∈ p.content.references, ref ∈ (TypeBody.sequence ps d.attributes).references :=
    fun ref href => List.mem_append_left _ (List.mem_flatMap.mpr ⟨p, hp, href⟩)
  generalize p.content = content at hcontent hmem
  cases hcontent with
  | leaf hnil => exact absurd hnil hne
  | @named t' _ ht' hdigest =>
    have hsame : t = t' :=
      List.inj_on_of_nodup_map hbuilt.digests_nodup ht ht' (htv.trans hdigest.symm)
    exact hmem _ (by simp [Content.references, hsame])

end

/-- The types of a schema are those of the fingerprints that a walk of the profile visits, in the
order in which it leaves their first declarations. -/
theorem census_of_compile {s : Settings} {document : Node} {source : Source}
    (hdoc : Source.ofDocument document = .ok source)
    (hs : s.NoCollision (.ofRoots source.profile.roots)) {schema : Schema}
    (h : compile s source.profile = .ok schema) :
    Census s source.profile.roots schema := by
  obtain ⟨-, hbuilt, hroots⟩ := compiled_of_compile hs (Profile.uri_ne_empty hdoc) h
  obtain ⟨r, htypes, hledger⟩ := ledger_of_draft hs ((compile_eq_ok_iff hs).mp h).2
  have hcomplete (digest : String) : digest ∈ schema.types.map TypeDefinition.digest ↔
      ∃ v ∈ preorder source.profile.roots, s.fingerprint v.2 = digest := by
    rw [htypes]
    constructor
    · exact fun hmem => List.mem_map.mp (hledger.visited hmem)
    · rintro ⟨v, hv, rfl⟩
      exact (hledger.known v hv).resolve_right List.not_mem_nil
  refine ⟨hbuilt.digests_nodup, hcomplete, htypes ▸ hledger.types, fun t ht => ?_⟩
  obtain ⟨v, hv, hvt⟩ := (hcomplete t.digest).mp (List.mem_map_of_mem ht)
  obtain ⟨w, hw, hv⟩ := Profile.mem_walks.mp hv
  obtain rfl | ⟨u, hu, hnext⟩ := Profile.follows_of_mem_walk Profile.arranges_before hv
  · obtain ⟨g, hg, rfl⟩ := List.mem_map.mp hw
    have hgroup := List.mem_map_of_mem (f := Siblings.map Prod.snd) hg
    rw [Profile.placedGroups_map] at hgroup
    obtain ⟨root, hroot, hfits⟩ := exists_of_mem_left hroots hgroup
    obtain ⟨t', ht', href, hjudge⟩ := hfits.type
    have hdigest := ((s.judgedRight _).ok _ hjudge).1
    have hsame : t = t' :=
      List.inj_on_of_nodup_map hbuilt.digests_nodup ht ht' (hvt.symm.trans hdigest.symm)
    exact .inl ⟨root, hroot, hsame ▸ href⟩
  · have hvisited : u ∈ preorder source.profile.roots := Profile.mem_walks.mpr ⟨w, hw, hu⟩
    obtain ⟨t', ht', hdigest⟩ := List.mem_map.mp ((hcomplete _).mpr ⟨u, hvisited, rfl⟩)
    exact .inr ⟨t', ht', references_of_nextVisit hs hbuilt ht ht'
      ⟨u.1, Profile.at_of_mem_preorder hvisited⟩
      hdigest hnext hvt.symm⟩

def keyNode : Node := .element (.plain elementTag) [] [⟨.plain "name", "key"⟩] []

def itemNode : Node := .element (.plain elementTag) [] [⟨.plain "name", "item"⟩] [keyNode]

def purchaseNode : Node := .element (.plain elementTag) [] [⟨.plain "name", "order"⟩] [itemNode]

def amountNode : Node :=
  .element (.plain elementTag) [] [⟨.plain "name", "Item"⟩, ⟨.plain "dataType", "number"⟩] []

def lineNode : Node := .element (.plain elementTag) [] [⟨.plain "name", "line"⟩] [keyNode]

/-- An order with an item in it, a number of the same preferred name, and a line that is like the
item. -/
def purchases : Source :=
  ⟨none, .element (.plain "DataElements") [] [] [purchaseNode, amountNode, lineNode]⟩

def purchasesDocument : Node := .element (.plain "XMLProfile") [] [] [purchases.holder]

def keyedText : String :=
  "\x7b\"attributes\":[],\"children\":[[\"key\",1,1,\"" ++ leafDigest ++
    "\"]],\"facets\":[],\"order\":[\"key\"],\"type\":\"xs:string\"\x7d"

def keyedDigest : String := "4092246828141bee18859a615b4511f1454193ecbcaacda978e3e0a67040f959"

def purchaseText : String :=
  "\x7b\"attributes\":[],\"children\":[[\"item\",1,1,\"" ++ keyedDigest ++
    "\"]],\"facets\":[],\"order\":[\"item\"],\"type\":\"xs:string\"\x7d"

def purchaseDigest : String := "5d2f0fc202d48448951f3a453e2f32fc3c1c91cb478b3f120b9072cabc9c6311"

lemma sha256_keyedText : Digest.sha256 keyedText = keyedDigest := by decide +kernel

lemma sha256_purchaseText : Digest.sha256 purchaseText = purchaseDigest := by decide +kernel

def purchasesTable : List (String × String) :=
  [(leafText, leafDigest), (decimalText, decimalDigest), (keyedText, keyedDigest),
    (purchaseText, purchaseDigest)]

lemma digest_purchasesTable :
    ∀ e ∈ purchasesTable, (Settings.standard .permissive true).digest e.1 = e.2 := by
  simpa [purchasesTable, Settings.standard] using
    ⟨sha256_leafText, sha256_decimalText, sha256_keyedText, sha256_purchaseText⟩

lemma noCollision_purchases :
    (Settings.standard .permissive true).NoCollision (.ofRoots purchases.profile.roots) :=
  Settings.noCollision_of_table purchasesTable digest_purchasesTable (by decide) (by decide +kernel)

lemma names_purchases : (compile (.standard .permissive true) purchases.profile).toOption.map
    (fun schema => schema.types.map TypeDefinition.name) =
    some ["ItemType", "OrderType", "ItemType1"] := by
  rw [← Settings.digest_table purchasesTable digest_purchasesTable]
  decide +kernel

/-- The type of the item is put in before that of the order around it, and the number comes second
to prefer its name. The line takes the type of the item. -/
theorem purchases_counted : ∃ schema, Source.ofDocument purchasesDocument = .ok purchases ∧
    compile (.standard .permissive true) purchases.profile = .ok schema ∧
    schema.types.map TypeDefinition.name = ["ItemType", "OrderType", "ItemType1"] ∧
    Census (.standard .permissive true) purchases.profile.roots schema := by
  obtain ⟨schema, hschema, hnames⟩ := Option.map_eq_some_iff.mp names_purchases
  have hcompile := eq_ok_of_toOption hschema
  have hdoc : Source.ofDocument purchasesDocument = .ok purchases := rfl
  exact ⟨schema, hdoc, hcompile, hnames, census_of_compile hdoc noCollision_purchases hcompile⟩

end SchemaLoom.Xsd
