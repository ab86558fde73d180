import SchemaLoom.Proofs.Xsd.Census
import SchemaLoom.Proofs.Xsd.Redrafting

/-! What was compiled once is compiled again from what is there: the second of two elements of one
digest has the body of the first, and nothing is added for it. -/
namespace SchemaLoom.Xsd
open Profile (Declaration Siblings Forest)

/-- A draft puts in types of a kind of declarations behind those that are there, and where all of
them are there it has the same result and does nothing. -/
structure Repeats (s : Settings) (kind : Declaration → Prop) {α : Type} (p : Drafting α) :
    Prop where
  adds : ∀ {r a r'}, p.run r = .ok (a, r') → ∃ new, r'.types = r.types ++ new ∧
    ∀ t ∈ new, ∃ d, kind d ∧ t.digest = s.fingerprint d
  again : ∀ {r a r'}, p.run r = .ok (a, r') → ∀ later : Registry, r'.types <+: later.types →
    p.run later = .ok (a, later)

section
variable {s : Settings} {F : Forest} {kind kind' : Declaration → Prop} {α β : Type}

namespace Repeats

/-- A step that neither reads nor changes the registry. -/
theorem of_steady {p : Drafting α} (h : ∀ r a r', p.run r = .ok (a, r') → ∀ later : Registry,
    r' = r ∧ p.run later = .ok (a, later)) : Repeats s kind p where
  adds hrun := ⟨[], by rw [(h _ _ _ hrun .empty).1, List.append_nil], by simp⟩
  again hrun later _ := (h _ _ _ hrun later).2

theorem pure (a : α) : Repeats s kind (pure a : Drafting α) :=
  .of_steady fun r b r' hrun later => by
    cases hrun
    exact ⟨rfl, rfl⟩

theorem bind {p : Drafting α} {k : α → Drafting β} (hp : Repeats s kind p)
    (hk : ∀ a, Repeats s kind (k a)) :
    Repeats s kind (p >>= k) where
  adds hrun := by
    obtain ⟨a, r₁, hfirst, hrest⟩ := drafting_bind_eq_ok hrun
    obtain ⟨new, htypes, hnew⟩ := hp.adds hfirst
    obtain ⟨more, htypes', hmore⟩ := (hk a).adds hrest
    refine ⟨new ++ more, by rw [htypes', htypes, List.append_assoc], fun t ht => ?_⟩
    exact (List.mem_append.mp ht).elim (hnew t) (hmore t)
  again hrun later hlater := by
    obtain ⟨a, r₁, hfirst, hrest⟩ := drafting_bind_eq_ok hrun
    obtain ⟨more, htypes, -⟩ := (hk a).adds hrest
    have hgrown : r₁.types <+: later.types := .trans ⟨more, htypes.symm⟩ hlater
    rw [StateT.run_bind, hp.again hfirst later hgrown]
    exact (hk a).again hrest later hlater

theorem mono {p : Drafting α} (h : Repeats s kind p) (hkind : ∀ d, kind d → kind' d) :
    Repeats s kind' p where
  adds hrun := by
    obtain ⟨new, htypes, hnew⟩ := h.adds hrun
    exact ⟨new, htypes, fun t ht => (hnew t ht).imp fun d hd => ⟨hkind d hd.1, hd.2⟩⟩
  again := h.again

end Repeats

lemma repeats_legal (name : String) : Repeats s kind (Xml.legal name : Drafting Unit) :=
  .of_steady fun r u r' hrun later => by
    refine ⟨eq_of_run_legal hrun, ?_⟩
    cases hlegal : Xml.legal name with
    | ok u => rfl
    | error fault =>
      rw [hlegal] at hrun
      cases hrun

/-- A type that is found stays found when types come behind. -/
lemma Registry.find_of_prefix {r later : Registry} {digest : String} {t : TypeDefinition}
    (h : r.find? digest = some t) (hlater : r.types <+: later.types) :
    later.find? digest = some t := by
  obtain ⟨more, hmore⟩ := hlater
  rw [Registry.find?, ← hmore, List.find?_append]
  exact Option.or_eq_some_iff.mpr (.inl h)

/-- What is made for declarations that one leads to leaves the digest of that one free. -/
lemma Repeats.leaves_free (hs : s.Grounded F) {d : Declaration} (hd : F.Has d) {p : Drafting α}
    (hp : Repeats s d.Leads p) {r r' : Registry} {a : α} (hnone : r.find? (s.fingerprint d) = none)
    (hrun : p.run r = .ok (a, r')) : r'.find? (s.fingerprint d) = none := by
  obtain ⟨new, htypes, hnew⟩ := hp.adds hrun
  rw [Registry.find_eq_none, htypes]
  intro u hu
  obtain hu | hu := List.mem_append.mp hu
  · exact Registry.find_eq_none.mp hnone u hu
  · obtain ⟨e, hlead, hdigest⟩ := hnew u hu
    rw [hdigest]
    exact hs d e hd hlead

/-- The type of a declaration is found afterwards, since none of what its body needs takes its
digest. -/
lemma find_of_draftType (hs : s.Grounded F) {d : Declaration} (hd : F.Has d)
    {preferred name : String} {body : String → Drafting TypeBody}
    (hbody : ∀ name, Repeats s d.Leads (body name)) {r r' : Registry}
    (hrun : (draftType (s.fingerprint d) preferred body).run r = .ok (name, r')) :
    ∃ t new, r'.find? (s.fingerprint d) = some t ∧ t.name = name ∧ r'.types = r.types ++ new ∧
      ∀ u ∈ new, ∃ e, LeadsFrom d e ∧ u.digest = s.fingerprint e := by
  obtain ⟨t, hfind, rfl, rfl⟩ | ⟨hfind, rfl, content, r₁, hcontent, rfl⟩ := draftType_cases hrun
  · exact ⟨t, [], hfind, rfl, by simp, by simp⟩
  · obtain ⟨new, htypes, hnew⟩ := (hbody _).adds hcontent
    have hfree := (hbody _).leaves_free (r := (r.allocate preferred).2) hs hd hfind hcontent
    set t : TypeDefinition := ⟨(r.allocate preferred).1, s.fingerprint d, content⟩
    have hreg := Registry.register_of_new (t := t) hfree
    have hself : t.digest = s.fingerprint d := rfl
    refine ⟨t, new ++ [t], ?_, rfl, ?_, fun u hu => ?_⟩
    · rw [hreg, Registry.find?, List.find?_append]
      exact Option.or_eq_some_iff.mpr (.inr ⟨hfree, by simp [hself]⟩)
    · rw [hreg, htypes, List.append_assoc]
      rfl
    · obtain hu | hu := List.mem_append.mp hu
      · obtain ⟨e, hlead, hdigest⟩ := hnew u hu
        exact ⟨e, .inr hlead, hdigest⟩
      · exact ⟨d, .inl rfl, by rw [List.mem_singleton.mp hu, hself]⟩

lemma repeats_draftType (hs : s.Grounded F) {d : Declaration} (hd : F.Has d) {preferred : String}
    {body : String → Drafting TypeBody} (hbody : ∀ name, Repeats s d.Leads (body name)) :
    Repeats s (LeadsFrom d) (draftType (s.fingerprint d) preferred body) where
  adds hrun := by
    obtain ⟨-, new, -, -, htypes, hnew⟩ := find_of_draftType hs hd hbody hrun
    exact ⟨new, htypes, hnew⟩
  again hrun later hlater := by
    obtain ⟨t, -, hfind, rfl, -⟩ := find_of_draftType hs hd hbody hrun
    exact draftType_of_find (Registry.find_of_prefix hfind hlater)

/-- The body of a declaration is drafted again from the types that are there. -/
theorem repeats_draftBody (hs : s.Grounded F) (qualified : Bool) : ∀ d : Declaration, F.Has d →
    ∀ name, Repeats s d.Leads (s.draftBody qualified d name) := by
  intro d
  induction d using Declaration.induction with
  | h f children ih =>
    intro hd name
    refine Settings.closed_draftBody (P := fun _ p => Repeats s _ p) (fun _ => .pure)
      (fun _ _ _ _ => .bind)
      (repeats_legal name) fun g hg => ?_
    have hbody := ih g.first (Declaration.first_mem_children hg) (hd.first hg)
    refine (repeats_draftType hs (hd.first hg) hbody).mono fun e he => ?_
    obtain rfl | he := he
    · exact .here hg
    · exact .inside hg he

end

/-- After the body of an element was compiled under some name, the body of every element of the same
digest is compiled under that name to the same, and neither a type nor a name is taken for it. -/
theorem body_repeats {s : Settings} {F : Forest} {uri : Option String} {calls : List (Call F)}
    {x y : Place F} {digest name : String} {body : TypeBody} {c₁ : Context} (hs : s.NoCollision F)
    (hx : x.digestAfter s uri calls = .ok digest) (hy : y.digestAfter s uri calls = .ok digest)
    (hbody : ((x.subject s).body name).run (Call.after s calls (.start uri)) = (.ok body, c₁)) :
    ∃ c₂, ((y.subject s).body name).run c₁ = (.ok body, c₂) ∧ c₂.registry = c₁.registry := by
  have hknown := (sound_after calls (sound_start s F uri)).known
  rw [Place.digestAfter, Place.digest_eq _ hknown] at hx hy
  generalize Call.after s calls (.start uri) = c at hbody hknown
  obtain ⟨hfpx, hacceptsx⟩ := (s.judgedRight _).ok _ hx
  obtain ⟨hfpy, hacceptsy⟩ := (s.judgedRight _).ok _ hy
  have hsame := draftBody_congr hs c.uri.isSome _ _ ⟨_, x.at_path⟩ ⟨_, y.at_path⟩
      (hfpx.symm.trans hfpy)
  have hfirst := performs_body x.declaration x.path x.at_path hacceptsx name c hknown rfl
  change (Subject.body (.of s x.path x.declaration) name).run c = _ at hbody
  cases hdraft : (s.draftBody c.uri.isSome x.declaration name).run c.registry with
  | error fault =>
    rw [hdraft, hbody] at hfirst
    cases hfirst
  | ok done =>
    obtain ⟨body', r⟩ := done
    rw [hdraft] at hfirst
    obtain ⟨c', hrun, hknown', huri, rfl⟩ := hfirst
    cases hbody.symm.trans hrun
    have hsecond := performs_body y.declaration y.path y.at_path hacceptsy name c₁ hknown' huri
    have hagain :=
      (repeats_draftBody hs.grounded c.uri.isSome x.declaration ⟨_, x.at_path⟩ name).again
      hdraft c₁.registry (List.prefix_refl _)
    rw [← hsame, hagain] at hsecond
    obtain ⟨c₂, hrun₂, -, -, hregistry⟩ := hsecond
    exact ⟨c₂, hrun₂, hregistry⟩

def keyedItem : Declaration := .mk ⟨"item", .string, [], ⟨1, .finite 1⟩, []⟩ [leaf "key"]

/-- An element of some name with an item in it. -/
def itemized (name : String) : Declaration :=
  .mk ⟨name, .string, [], ⟨1, .finite 1⟩, []⟩ [keyedItem]

def itemizedTwins : List Declaration := [itemized "order", itemized "bill"]

def orderPlace : Place (.ofRoots itemizedTwins) := ⟨[0], itemized "order", rfl⟩

def billPlace : Place (.ofRoots itemizedTwins) := ⟨[1], itemized "bill", rfl⟩

lemma textOf_itemized : ∀ d ∈ itemizedTwins, (Settings.standard .permissive true).textOf d =
    purchaseText := by
  rw [← Settings.digest_table purchasesTable digest_purchasesTable]
  decide +kernel

lemma noCollision_itemized :
    (Settings.standard .permissive true).NoCollision (.ofRoots itemizedTwins) :=
  Settings.noCollision_of_table purchasesTable digest_purchasesTable (by decide) (by decide +kernel)

lemma body_order : (((orderPlace.subject (.standard .permissive true)).body "OrderType").run
    (.start none)).1.toOption =
    some (.sequence [⟨"item", ⟨1, .finite 1⟩, .named "ItemType"⟩] []) := by
  rw [← Settings.digest_table purchasesTable digest_purchasesTable]
  decide +kernel

/-- The item in a bill is of the type that was made for the item in the order before. -/
theorem bill_repeats_order : ∃ body c₁ c₂,
    ((orderPlace.subject (.standard .permissive true)).body "OrderType").run (.start none) =
    (.ok body, c₁) ∧
    body = .sequence [⟨"item", ⟨1, .finite 1⟩, .named "ItemType"⟩] [] ∧
    ((billPlace.subject (.standard .permissive true)).body "OrderType").run c₁ = (.ok body, c₂) ∧
    c₂.registry = c₁.registry := by
  have hx := orderPlace.digestAfter_permissive (s := .standard .permissive true) rfl none []
  have hy := billPlace.digestAfter_permissive (s := .standard .permissive true) rfl none []
  have hsame : (Settings.standard .permissive true).fingerprint billPlace.declaration =
      (Settings.standard .permissive true).fingerprint orderPlace.declaration := by
    rw [Settings.fingerprint, Settings.fingerprint,
      textOf_itemized _ (by simp [billPlace, itemizedTwins]),
      textOf_itemized _ (by simp [orderPlace, itemizedTwins])]
  have hbody := eq_ok_of_toOption body_order
  rw [hsame] at hy
  obtain ⟨c₂, hagain, hregistry⟩ :=
    body_repeats (F := .ofRoots itemizedTwins) noCollision_itemized hx hy (Prod.ext hbody rfl)
  exact ⟨_, _, c₂, Prod.ext hbody rfl, rfl, hagain, hregistry⟩

end SchemaLoom.Xsd
