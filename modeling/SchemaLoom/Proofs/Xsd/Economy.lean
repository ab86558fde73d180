import Mathlib.Data.List.Perm.Subperm
import SchemaLoom.Proofs.Xsd.Census
import SchemaLoom.Proofs.Xsd.Outline
import SchemaLoom.Proofs.Xsd.Verdict

/-! Sharing types across names next to not sharing them. A name counts once, for the element that
has it: below it the names of elements are told anyway. So sharing makes fewer types, and finds the
same conflicts, since only elements of one name are merged. -/
namespace SchemaLoom.Xsd
open Profile (Declaration Siblings Forest Source ConversionError ElementProfile Visit
  preorder elementTag)
open Xml (Node)

/-- The same choices, types being shared across names or not. -/
def Settings.sharing (s : Settings) (share : Bool) : Settings :=
  { s with shareAcrossNames := share }

section
variable {s : Settings} {F : Forest}

/-! ## Outlines with names and without -/

/-- Where types are not shared across names, outlines tell the names of the elements themselves, and
nothing else that they do not tell where types are shared. -/
theorem outline_unshared_eq_iff :
    ∀ a b : Declaration, (s.sharing false).outline a = (s.sharing false).outline b ↔
    a.name = b.name ∧ (s.sharing true).outline a = (s.sharing true).outline b := by
  intro a
  induction a using Declaration.induction with
  | h f children ih =>
    intro b
    have hline (g : Siblings Declaration) (hg : g ∈ (Declaration.mk f children).groups)
        (k : Siblings Declaration)
        (hk : k ∈ b.groups) :
        (s.sharing false).line g = (s.sharing false).line k ↔
          (s.sharing true).line g = (s.sharing true).line k := by
      have hfirst := ih g.first (Declaration.first_mem_children hg) k.first
      rw [Siblings.name_first hg, Siblings.name_first hk] at hfirst
      simp only [Settings.line, Prod.mk.injEq, hfirst]
      tauto
    constructor
    · intro h
      rw [Settings.outline_eq, Settings.outline_eq] at h
      obtain ⟨hname, hp, hf, ha, hlines⟩ := Outline.mk.inj h
      have hshared := map_eq_map_of_keys hlines fun g hg k hk => (hline g hg k hk).mp
      refine ⟨Option.some.inj hname, ?_⟩
      rw [Settings.outline_eq, Settings.outline_eq, hp, hf, ha, hshared]
      rfl
    · rintro ⟨hname, h⟩
      rw [Settings.outline_eq, Settings.outline_eq] at h
      obtain ⟨-, hp, hf, ha, hlines⟩ := Outline.mk.inj h
      have hunshared := map_eq_map_of_keys hlines fun g hg k hk => (hline g hg k hk).mpr
      rw [Settings.outline_eq, Settings.outline_eq, hp, hf, ha, hunshared, hname]

/-- Elements of one fingerprint keep having one where types are shared. -/
theorem fingerprint_shared_of_unshared {a b : Declaration} (hs : (s.sharing false).Apart a b)
    (h : (s.sharing false).fingerprint a = (s.sharing false).fingerprint b) :
    (s.sharing true).fingerprint a = (s.sharing true).fingerprint b := by
  have houtline := ((outline_unshared_eq_iff a b).mp (outline_eq_of_fingerprint_eq a b hs h)).2
  exact congrArg s.digest (textOf_eq_of_outline_eq a b houtline)

/-- Elements of one name have one fingerprint whether types are shared or not. -/
theorem fingerprint_shared_iff {a b : Declaration} (hoff : (s.sharing false).Apart a b)
    (hon : (s.sharing true).Apart a b) (hname : a.name = b.name) :
    (s.sharing true).fingerprint a = (s.sharing true).fingerprint b ↔
      (s.sharing false).fingerprint a = (s.sharing false).fingerprint b := by
  rw [fingerprint_eq_iff hoff, fingerprint_eq_iff hon, outline_unshared_eq_iff]
  exact ⟨fun h => ⟨hname, h⟩, fun h => h.2⟩

/-! ## Conflicts -/

section
variable (hoff : (s.sharing false).NoCollision F) (hon : (s.sharing true).NoCollision F)
include hoff hon

lemma split_shared_iff {ds : List Declaration} (hds : ∀ d ∈ ds, F.Has d) {g : Siblings Declaration}
    (hg : g ∈ Siblings.byName Declaration.name ds) :
    (s.sharing true).Split g ↔ (s.sharing false).Split g := by
  have hsame (a : Declaration) (ha : a ∈ g.members) (b : Declaration) (hb : b ∈ g.members) :
      (s.sharing true).fingerprint a = (s.sharing true).fingerprint b ↔
        (s.sharing false).fingerprint a = (s.sharing false).fingerprint b := by
    have hasA := hds a (Siblings.mem_of_mem_members hg ha)
    have hasB := hds b (Siblings.mem_of_mem_members hg hb)
    have hname := (Siblings.name_eq_of_mem_members hg ha).trans
        (Siblings.name_eq_of_mem_members hg hb).symm
    exact fingerprint_shared_iff (hoff.apart hasA hasB) (hon.apart hasA hasB) hname
  constructor
  · rintro ⟨a, ha, b, hb, hne⟩
    exact ⟨a, ha, b, hb, mt (hsame a ha b hb).mpr hne⟩
  · rintro ⟨a, ha, b, hb, hne⟩
    exact ⟨a, ha, b, hb, mt (hsame a ha b hb).mp hne⟩

end

/-- Groups of several whose digests fail alike are merged alike, if they are split alike. -/
lemma failAlike_mergeJudged {g : Siblings Declaration}
    (hm : ∀ m ∈ g.members, FailAlike ((s.sharing true).judge m) ((s.sharing false).judge m))
    (hsplit : (s.sharing true).Split g ↔ (s.sharing false).Split g) :
    FailAlike ((s.sharing true).mergeJudged (g.map (s.sharing true).withJudgement))
      ((s.sharing false).mergeJudged (g.map (s.sharing false).withJudgement)) := by
  by_cases ho : g.others = []
  · rw [Settings.mergeJudged_single ho, Settings.mergeJudged_single ho]
    exact .refl _
  have hall := FailAlike.mapM hm
  cases hon : g.members.mapM (s.sharing true).judge with
  | error e =>
    rw [Settings.mergeJudged_several ho, Settings.mergeJudged_several ho, hon, (hall e).mp hon]
    exact .refl _
  | ok digests =>
    cases hoff : g.members.mapM (s.sharing false).judge with
    | error e =>
      have he := (hall e).mpr hoff
      rw [hon] at he
      cases he
    | ok digests' =>
      obtain rfl := Settings.digests_eq (fun m _ => Settings.judgedRight _ m) hon
      obtain rfl := Settings.digests_eq (fun m _ => Settings.judgedRight _ m) hoff
      by_cases h : (s.sharing true).Split g
      · rw [Settings.mergeJudged_split ho hon h, Settings.mergeJudged_split ho hoff (hsplit.mp h)]
        exact .refl _
      · rw [Settings.mergeJudged_agree ho hon h,
          Settings.mergeJudged_agree ho hoff (mt hsplit.mpr h)]
        exact .refl _

section
variable (hoff : (s.sharing false).NoCollision F) (hon : (s.sharing true).NoCollision F)
include hoff hon

/-- Digests fail alike. -/
theorem failAlike_judge :
    ∀ d, F.Has d → FailAlike ((s.sharing true).judge d) ((s.sharing false).judge d) := by
  intro d
  induction d using Declaration.induction with
  | h f children ih =>
    intro hd
    have hchildren : ∀ e ∈ children, F.Has e := fun e he => hd.child he
    rw [Settings.judge_eq, Settings.judge_eq]
    simp only [List.forM_eq_forM, List.forM_map, List.mapM_map]
    refine .bind (.forM fun g hg => ?_) fun _ _ _ _ =>
      .bind (.mapM fun g hg => ?_) fun _ _ _ _ => .of_ok _ _
    · refine failAlike_mergeJudged (fun m hm => ?_) (split_shared_iff hoff hon hchildren hg)
      have hmem := Siblings.mem_of_mem_members hg hm
      exact ih m hmem (hchildren m hmem)
    · have hmem := Declaration.first_mem_children hg
      rw [Function.comp_apply, Function.comp_apply, Settings.entryJudged_eq,
        Settings.entryJudged_eq]
      exact .bind (ih _ hmem (hchildren _ hmem)) fun _ _ _ _ => .of_ok _ _

theorem failAlike_verdict {ds : List Declaration} (hds : ∀ d ∈ ds, F.Has d) :
    FailAlike ((s.sharing true).verdict ds) ((s.sharing false).verdict ds) := by
  refine .forM fun g hg => ?_
  refine .bind (failAlike_mergeJudged (fun m hm => ?_) (split_shared_iff hoff hon hds hg))
    fun _ _ _ _ => ?_
  · exact failAlike_judge hoff hon m (hds m (Siblings.mem_of_mem_members hg hm))
  · exact .bind (failAlike_judge hoff hon _ (hds _ (Siblings.first_mem hg))) fun _ _ _ _ =>
      .of_ok _ _

end

/-! ## Types -/

/-- Where fingerprints of one kind are one whenever those of another kind are, there are not more
types. -/
lemma Census.length_le {s' : Settings} {roots : List Declaration} {schema schema' : Schema}
    (h : Census s roots schema) (h' : Census s' roots schema')
    (hcoarse : ∀ v ∈ preorder roots, ∀ w ∈ preorder roots,
      s'.fingerprint v.2 = s'.fingerprint w.2 → s.fingerprint v.2 = s.fingerprint w.2) :
    schema.types.length ≤ schema'.types.length := by
  -- Each digest of the other kind stands for the digest of the visits that have it.
  have hstands (digest : String) : ∃ coarse, ∀ v ∈ preorder roots, s'.fingerprint v.2 = digest →
      s.fingerprint v.2 = coarse := by
    by_cases hvisited : ∃ v ∈ preorder roots, s'.fingerprint v.2 = digest
    · obtain ⟨v, hv, hfp⟩ := hvisited
      exact ⟨s.fingerprint v.2, fun w hw hsame => hcoarse w hw v hv (hsame.trans hfp.symm)⟩
    · exact ⟨digest, fun v hv hfp => absurd ⟨v, hv, hfp⟩ hvisited⟩
  choose coarse hcoarse using hstands
  have hsub : schema.types.map TypeDefinition.digest ⊆
      (schema'.types.map TypeDefinition.digest).map coarse := by
    intro digest hdigest
    obtain ⟨v, hv, rfl⟩ := (h.complete digest).mp hdigest
    exact List.mem_map.mpr ⟨_, (h'.complete _).mpr ⟨v, hv, rfl⟩, (hcoarse _ v hv rfl).symm⟩
  simpa using (List.subperm_of_subset h.distinct hsub).length_le

end

/-- How a document compares with types shared across names and without. -/
structure SharingCompares (s : Settings) (source : Source) : Prop where
  /-- There are the same conflicts. -/
  conflict : ∀ name count, compile (s.sharing true) source.profile = .error (.conflict name count) ↔
    compile (s.sharing false) source.profile = .error (.conflict name count)
  /-- Sharing makes no more types. -/
  types : ∀ schema schema', compile (s.sharing true) source.profile = .ok schema →
    compile (s.sharing false) source.profile = .ok schema' →
    schema.types.length ≤ schema'.types.length

/-- Two elements have one digest, whatever was asked before. -/
def SameDigest {F : Forest} (s : Settings) (x y : Place F) : Prop :=
  ∃ digest, ∀ uri calls, x.digestAfter s uri calls = .ok digest ∧
    y.digestAfter s uri calls = .ok digest

lemma sameDigest_shared {s : Settings} {F : Forest} (hoff : (s.sharing false).NoCollision F)
    (hon : (s.sharing true).NoCollision F) {x y : Place F} {uri uri' : Option String}
    {calls calls' : List (Call F)} {digest : String}
    (hx : x.digestAfter (s.sharing false) uri calls = .ok digest)
    (hy : y.digestAfter (s.sharing false) uri' calls' = .ok digest) :
    SameDigest (s.sharing true) x y := by
  have hknown (s : Settings) (uri : Option String) (calls : List (Call F)) :=
    (sound_after calls (sound_start s F uri)).known
  have hjudged {x : Place F} {uri : Option String} {calls : List (Call F)}
      (h : x.digestAfter (s.sharing false) uri calls = .ok digest) :
      (s.sharing true).judge x.declaration = .ok ((s.sharing true).fingerprint x.declaration) := by
    rw [Place.digestAfter, x.digest_eq (hknown _ _ _)] at h
    cases hjudge : (s.sharing true).judge x.declaration with
    | error e =>
      rw [(failAlike_judge hoff hon _ ⟨_, x.at_path⟩ e).mp hjudge] at h
      cases h
    | ok found => rw [((Settings.judgedRight _ _).ok _ hjudge).1]
  have hsame : (s.sharing true).fingerprint x.declaration =
      (s.sharing true).fingerprint y.declaration := by
    refine fingerprint_shared_of_unshared (hoff.apart ⟨_, x.at_path⟩ ⟨_, y.at_path⟩) ?_
    rw [← Place.eq_fingerprint hx, ← Place.eq_fingerprint hy]
  refine ⟨(s.sharing true).fingerprint x.declaration, fun uri calls => ⟨?_, ?_⟩⟩
  · rw [Place.digestAfter, x.digest_eq (hknown _ _ _), hjudged hx]
  · rw [Place.digestAfter, y.digest_eq (hknown _ _ _), hjudged hy, hsame]

/-- Sharing types across names merges types and does nothing else: elements of one digest keep
having one, the conflicts are the same, and there are no more types. -/
theorem sharing_only_merges (s : Settings) :
    (∀ (F : Forest), (s.sharing false).NoCollision F → (s.sharing true).NoCollision F →
      ∀ (x y : Place F) (uri uri' : Option String) (calls calls' : List (Call F)) (digest : String),
        x.digestAfter (s.sharing false) uri calls = .ok digest →
        y.digestAfter (s.sharing false) uri' calls' = .ok digest →
        SameDigest (s.sharing true) x y) ∧
    ∀ (document : Node) (source : Source), document.IsLegal →
    Source.ofDocument document = .ok source →
      (s.sharing false).NoCollision (.ofRoots source.profile.roots) →
      (s.sharing true).NoCollision (.ofRoots source.profile.roots) → SharingCompares s source := by
  refine ⟨fun F hoff hon x y _ _ _ _ _ hx hy => sameDigest_shared hoff hon hx hy, ?_⟩
  intro document source hlegal hdoc hoff hon
  have hspelled := spelled_of_readFrom hlegal (Profile.readFrom_profile hdoc)
  constructor
  · intro name count
    rw [compile_eq_conflict_iff hspelled, compile_eq_conflict_iff hspelled]
    exact failAlike_verdict hoff hon (fun d hd => Forest.has_of_mem hd) _
  · intro schema schema' h h'
    refine (census_of_compile hdoc hon h).length_le (census_of_compile hdoc hoff h')
      fun v hv w hw => ?_
    exact fingerprint_shared_of_unshared
      (hoff.apart ⟨v.1, Profile.at_of_mem_preorder hv⟩ ⟨w.1, Profile.at_of_mem_preorder hw⟩)

def textNode (name : String) : Node := .element (.plain elementTag) [] [⟨.plain "name", name⟩] []

/-- The twins, the first of them twice. -/
def echo : Source :=
  ⟨none, .element (.plain "DataElements") [] [] [textNode "a", textNode "a", textNode "b"]⟩

def echoDocument : Node := .element (.plain "XMLProfile") [] [] [echo.holder]

/-- The canonical text of a leaf, where names count. -/
def namedText (name : String) : String :=
  "\x7b\"attributes\":[],\"children\":[],\"facets\":[],\"name\":\"" ++ name ++
    "\",\"order\":[],\"type\":\"xs:string\"\x7d"

def namedTable : List (String × String) :=
  [(namedText "a", "29dc16f35a69cda1289c7bc323a31697b048f8022643fd51a63754dc621f80bb"),
    (namedText "b", "155521dd416fe015386857b284db9e5effaf62ca08f7de21f7ec9f1dc5acc674")]

lemma digest_namedTable :
    ∀ e ∈ namedTable, (Settings.standard .permissive false).digest e.1 = e.2 := by
  simp only [namedTable, List.forall_mem_cons, List.not_mem_nil, false_imp_iff,
    implies_true, and_true]
  constructor
  · decide +kernel
  · decide +kernel

lemma noCollision_echo_unshared :
    (Settings.standard .permissive false).NoCollision (.ofRoots echo.profile.roots) :=
  Settings.noCollision_of_table namedTable digest_namedTable (by decide) (by decide +kernel)

lemma noCollision_echo_shared :
    (Settings.standard .permissive true).NoCollision (.ofRoots echo.profile.roots) := by
  refine (noCollision_twins .permissive).of_subset ?_
  change [leaf "a", leaf "a", leaf "b"] ⊆ twins
  simp [twins]

lemma names_echo_shared : (compile (.standard .permissive true) echo.profile).toOption.map
    (fun schema => schema.types.map TypeDefinition.name) = some ["AType"] := by
  rw [standard_eq]
  decide +kernel

lemma names_echo_unshared : (compile (.standard .permissive false) echo.profile).toOption.map
    (fun schema => schema.types.map TypeDefinition.name) = some ["AType", "BType"] := by
  rw [← Settings.digest_table namedTable digest_namedTable]
  decide +kernel

lemma isLegal_echo : echoDocument.IsLegal := by
  unfold Node.IsLegal
  decide +kernel

def firstEcho : Place (.ofRoots echo.profile.roots) := ⟨[0], leaf "a", rfl⟩

def secondEcho : Place (.ofRoots echo.profile.roots) := ⟨[1], leaf "a", rfl⟩

/-- The twins share a type or have one each. The first of them has its digest both times. -/
theorem echo_shared : ∃ digest schema schema', echoDocument.IsLegal ∧
    Source.ofDocument echoDocument = .ok echo ∧
    firstEcho.digestAfter (.standard .permissive false) none [] = .ok digest ∧
    secondEcho.digestAfter (.standard .permissive false) none [] = .ok digest ∧
    SameDigest (.standard .permissive true) firstEcho secondEcho ∧
    compile (.standard .permissive true) echo.profile = .ok schema ∧
    schema.types.map TypeDefinition.name = ["AType"] ∧
    compile (.standard .permissive false) echo.profile = .ok schema' ∧
    schema'.types.map TypeDefinition.name = ["AType", "BType"] ∧
    SharingCompares (.standard .permissive true) echo := by
  obtain ⟨schema, hschema, hshared⟩ := Option.map_eq_some_iff.mp names_echo_shared
  obtain ⟨schema', hschema', hunshared⟩ := Option.map_eq_some_iff.mp names_echo_unshared
  have hdoc : Source.ofDocument echoDocument = .ok echo := rfl
  have hx := firstEcho.digestAfter_permissive (s := .standard .permissive false) rfl none []
  have hy := secondEcho.digestAfter_permissive (s := .standard .permissive false) rfl none []
  obtain ⟨hsame, hcompares⟩ := sharing_only_merges (.standard .permissive true)
  refine ⟨_, schema, schema', isLegal_echo, hdoc, hx, hy, ?_, eq_ok_of_toOption hschema, hshared,
    eq_ok_of_toOption hschema', hunshared, ?_⟩
  · exact hsame _ noCollision_echo_unshared noCollision_echo_shared _ _ _ _ _ _ _ hx hy
  · exact hcompares _ _ isLegal_echo hdoc noCollision_echo_unshared noCollision_echo_shared

end SchemaLoom.Xsd
