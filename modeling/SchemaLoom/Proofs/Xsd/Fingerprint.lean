import SchemaLoom.Proofs.Profile.Declaration
import SchemaLoom.Proofs.Xsd.Signature
import SchemaLoom.Xsd.Compile

/-! The fingerprint of a declaration by itself, computed without memory of others. Where no two
texts of a forest collide it determines all that a type is made of, and no declaration has the
fingerprint of one that it stands in. -/
namespace SchemaLoom.Xsd
open Profile (Declaration Facts Siblings Forest)

namespace Settings

/-- The canonical text of a declaration. -/
def textOf (s : Settings) : Declaration → String :=
  Declaration.foldGroups fun f gs => signature (!s.shareAcrossNames) f
    (gs.map fun g => ⟨g.name, g.range (·.1.range), s.digest g.first.2⟩)

/-- The digest of the canonical text of a declaration. -/
def fingerprint (s : Settings) (d : Declaration) : String := s.digest (s.textOf d)

/-- What a canonical text says of a group. -/
def entry (s : Settings) (g : Siblings Declaration) : Entry :=
  ⟨g.name, g.range Declaration.range, s.fingerprint g.first⟩

theorem textOf_eq (s : Settings) (d : Declaration) :
    s.textOf d = signature (!s.shareAcrossNames) d.facts (d.groups.map s.entry) := by
  rw [textOf, Declaration.foldGroups_eq, List.map_map]
  congr 1
  apply List.map_congr_left
  intro g _
  simp only [Function.comp_apply, Siblings.map_name, Siblings.map_first, Siblings.map_range, entry]
  rfl

lemma nodup_entry_names (s : Settings) (ds : List Declaration) :
    (((Siblings.byName Declaration.name ds).map s.entry).map Entry.name).Nodup := by
  rw [List.map_map]
  exact Siblings.nodup_names_byName Declaration.name ds

/-- Declarations of one text agree in all that a type is made of. -/
theorem parts_of_textOf_eq {s : Settings} {a b : Declaration} (h : s.textOf a = s.textOf b) :
    a.primitive = b.primitive ∧ a.facets = b.facets ∧ a.attributes = b.attributes ∧
      a.groups.map s.entry = b.groups.map s.entry ∧
      (s.shareAcrossNames = false → a.name = b.name) := by
  rw [textOf_eq, textOf_eq] at h
  obtain ⟨hp, hf, ha, he, hn⟩ := signature_injective (s.nodup_entry_names b.children) h
  exact ⟨hp, hf, ha, he, fun hs => hn (by simp [hs])⟩

/-- No two texts of a forest have one digest. -/
def NoCollision (s : Settings) (F : Forest) : Prop :=
  ∀ a b, F.Has a → F.Has b → s.fingerprint a = s.fingerprint b → s.textOf a = s.textOf b

lemma NoCollision.of_subset {s : Settings} {roots more : List Declaration}
    (hs : s.NoCollision (.ofRoots more)) (hsub : roots ⊆ more) : s.NoCollision (.ofRoots roots) :=
  fun a b ha hb => hs a b (ha.of_subset hsub) (hb.of_subset hsub)

/-- Digests that are known may be looked up. -/
theorem digest_table {s : Settings} (table : List (String × String))
    (h : ∀ e ∈ table, s.digest e.1 = e.2) :
    { s with digest := fun text => (table.lookup text).getD (s.digest text) } = s := by
  obtain ⟨mode, share, digest⟩ := s
  congr
  funext text
  cases hl : table.lookup text with
  | none => rfl
  | some known =>
    obtain ⟨l, r, rfl, -⟩ := List.lookup_eq_some_iff.mp hl
    exact (h (text, known) (by simp)).symm

/-- Each group has a match in every declaration of the same fingerprint. -/
lemma exists_group_of_fingerprint_eq {s : Settings} {F : Forest} (hs : s.NoCollision F)
    {a b : Declaration} (ha : F.Has a) (hb : F.Has b) (h : s.fingerprint a = s.fingerprint b)
    {g : Siblings Declaration} (hg : g ∈ a.groups) : ∃ k ∈ b.groups, s.entry k = s.entry g := by
  obtain ⟨-, -, -, he, -⟩ := parts_of_textOf_eq (hs a b ha hb h)
  have hm : s.entry g ∈ b.groups.map s.entry := he ▸ List.mem_map_of_mem hg
  exact List.mem_map.mp hm

/-- No declaration shares its fingerprint with one that it stands in. The induction is on the inner
declaration: it would hold a smaller one of the fingerprint of the next on the way to it. -/
theorem fingerprint_ne_of_leads {s : Settings} {F : Forest} (hs : s.NoCollision F) :
    ∀ d a : Declaration, F.Has a → a.Leads d → s.fingerprint d ≠ s.fingerprint a := by
  intro d
  induction d using Declaration.induction with
  | h f children ih =>
    intro a ha hlead heq
    have hd := ha.leads hlead
    obtain ⟨k, hk, hkd⟩ := hlead.step
    obtain ⟨g, hg, he⟩ := exists_group_of_fingerprint_eq hs ha hd heq.symm hk
    have hgk : s.fingerprint g.first = s.fingerprint k.first := congrArg Entry.digest he
    have hin : k.first.Leads g.first := by
      obtain hkd | hkd := hkd
      · exact hkd ▸ .here hg
      · exact hkd.trans (.here hg)
    exact ih _ (Declaration.first_mem_children hg) _ (ha.first hk) hin hgk

/-- No declaration has the fingerprint of one that it stands in: digests do not run in a circle. -/
def Grounded (s : Settings) (F : Forest) : Prop :=
  ∀ a d, F.Has a → a.Leads d → s.fingerprint d ≠ s.fingerprint a

theorem NoCollision.grounded {s : Settings} {F : Forest} (hs : s.NoCollision F) : s.Grounded F :=
  fun a d ha hlead => fingerprint_ne_of_leads hs d a ha hlead

/-- Texts that are known with their digests, all of which differ, do not collide. The texts are
computed with the digests looked up. -/
theorem noCollision_of_table {s : Settings} {roots : List Declaration}
    (table : List (String × String)) (hdigest : ∀ e ∈ table, s.digest e.1 = e.2)
    (hdistinct : (table.map Prod.snd).Nodup) (htext : ∀ d ∈ roots.flatMap Declaration.nested,
      { s with digest := fun text => (table.lookup text).getD (s.digest text) }.textOf d ∈
      table.map Prod.fst) :
    s.NoCollision (.ofRoots roots) := by
  rw [digest_table table hdigest] at htext
  intro a b ha hb hab
  obtain ⟨e, he, hea⟩ := List.mem_map.mp (htext a (Forest.mem_nested_of_has ha))
  obtain ⟨k, hk, hkb⟩ := List.mem_map.mp (htext b (Forest.mem_nested_of_has hb))
  rw [fingerprint, fingerprint, ← hea, ← hkb, hdigest e he, hdigest k hk] at hab
  rw [← hea, ← hkb, List.inj_on_of_nodup_map hdistinct he hk hab]

end Settings

/-! ## Leaves -/

/-- An element of text without facets, attributes and elements in it. -/
def leaf (name : String) : Declaration := .mk ⟨name, .string, [], ⟨1, .finite 1⟩, []⟩ []

def twins : List Declaration := [leaf "a", leaf "b"]

/-- The canonical text of a leaf, where names do not count. -/
def leafText : String :=
  "\x7b\"attributes\":[],\"children\":[],\"facets\":[],\"order\":[],\"type\":\"xs:string\"\x7d"

def leafDigest : String := "ec3d6220ae2ab709443d931009116010407c6165dcf9b616ba74c69192962c9c"

lemma sha256_leafText : Digest.sha256 leafText = leafDigest := by decide +kernel

lemma standard_eq (mode : MergeMode) (shareAcrossNames : Bool) :
    Settings.standard mode shareAcrossNames =
    ⟨mode, shareAcrossNames, fun text => (List.lookup text [(leafText, leafDigest)]).getD
    (Digest.sha256 text)⟩ :=
  (Settings.digest_table [(leafText, leafDigest)]
    (by simpa [Settings.standard] using sha256_leafText)).symm

lemma noCollision_twins (mode : MergeMode) :
    (Settings.standard mode true).NoCollision (.ofRoots twins) := by
  refine Settings.noCollision_of_table [(leafText, leafDigest)] ?_ (List.nodup_singleton _) ?_
  · simpa [Settings.standard] using sha256_leafText
  · cases mode <;> decide +kernel

end SchemaLoom.Xsd
