import SchemaLoom.Proofs.Profile.Document
import SchemaLoom.Proofs.Xml.Reader
import SchemaLoom.Proofs.Xsd.Modes
import SchemaLoom.Proofs.Xsd.Roots
import SchemaLoom.Proofs.Xsd.Wording

/-! Strict mode refuses a document if and only if permissive mode warns of it, with the first
warning as the reason, and does nothing else differently. -/
namespace SchemaLoom.Xsd
open Profile (Declaration Siblings Forest Trail Source Event Notice ConversionError)
open Xml (Node)

/-- What is said while the profile of a document is compiled, in order. -/
def logged (source : Source) (c : Context) : List Notice :=
  c.events.reverse.flatMap (Event.notices source.holder)

/-- A notice that declarations of one name differ. -/
def isDivergent : Notice → Bool
  | .divergent .. => true
  | _ => false

lemma exists_find_divergent {notices : List Notice} :
    (∃ name count, notices.find? isDivergent = some (.divergent count name)) ↔
      ∃ count name, .divergent count name ∈ notices := by
  constructor
  · rintro ⟨name, count, h⟩
    exact ⟨count, name, List.mem_of_find?_eq_some h⟩
  · rintro ⟨count, name, h⟩
    have hsome : (notices.find? isDivergent).isSome := List.find?_isSome.mpr ⟨_, h, rfl⟩
    obtain ⟨notice, hnotice⟩ := Option.isSome_iff_exists.mp hsome
    have hdivergent := List.find?_some hnotice
    cases notice with
    | divergent count' name' => exact ⟨name', count', hnotice⟩
    | _ => cases hdivergent

lemma filter_rangeNotices (n : Node) : (Profile.rangeNotices n).filter isDivergent = [] := by
  rw [List.filter_eq_nil_iff]
  intro notice h
  unfold Profile.rangeNotices at h
  simp only [List.mem_append, Option.mem_toList, Option.map_eq_some_iff] at h
  obtain (⟨raw, -, rfl⟩ | ⟨raw, -, rfl⟩) | h := h
  · simp [isDivergent]
  · simp [isDivergent]
  · split at h
    · split at h
      · rw [List.mem_singleton.mp h]
        simp [isDivergent]
      · cases h
    · cases h

lemma filter_facetNotices (n : Node) (p : Profile.Primitive) :
    (Profile.facetNotices n p).filter isDivergent = [] := by
  rw [List.filter_eq_nil_iff]
  intro notice h
  unfold Profile.facetNotices at h
  split at h
  · obtain ⟨key, -, h⟩ := List.mem_flatMap.mp h
    simp only [Option.mem_toList, Option.map_eq_some_iff] at h
    obtain ⟨raw, -, rfl⟩ := h
    simp [isDivergent]
  · cases h

lemma filter_notices (root : Node) (e : Event) : (e.notices root).filter isDivergent =
    (divergence? e).toList.map fun d => .divergent d.1 d.2 := by
  cases e with
  | rangeRead path =>
    rw [Event.notices]
    cases Profile.nodeAt? root path with
    | none => rfl
    | some n =>
      rw [Option.map_some, Option.getD_some, filter_rangeNotices]
      rfl
  | facetsRead path =>
    rw [Event.notices]
    cases Profile.nodeAt? root path with
    | none => rfl
    | some n =>
      rw [Option.map_some, Option.getD_some, filter_facetNotices]
      rfl
  | attributeRead path index =>
    rw [Event.notices]
    split
    · rw [filter_facetNotices]
      rfl
    · rfl
  | told notice => cases notice <;> rfl

lemma filter_logged (source : Source) (c : Context) : (logged source c).filter isDivergent =
    (divergences c.events).map fun d => .divergent d.1 d.2 := by
  unfold logged divergences
  induction c.events.reverse with
  | nil => rfl
  | cons e events ih =>
    rw [List.flatMap_cons, List.filter_append, ih, filter_notices, List.filterMap_cons]
    cases divergence? e <;> rfl

@[simp] lemma fingerprint_inMode (s : Settings) (mode : MergeMode) (d : Declaration) :
    (s.inMode mode).fingerprint d = s.fingerprint d := rfl

lemma noCollision_inMode {s : Settings} {F : Forest} (h : s.NoCollision F) (mode : MergeMode) :
    (s.inMode mode).NoCollision F := h

lemma spelled_of_isLegal {source : Source} (h : source.holder.IsLegal) :
    Spelled (.ofRoots source.profile.roots) := fun _ hd =>
  Profile.isLegalText_declared h hd _ List.mem_cons_self

lemma spelled_of_readFrom {F : Forest} {document : Node} (h : document.IsLegal)
    (hF : F.ReadFrom document) :
    Spelled F := by
  intro d hd
  obtain ⟨n, hn, rfl⟩ := hF d hd
  rw [Profile.name_ofNode]
  exact Profile.isLegalText_nameOf (h.of_mem_walk hn)

section
variable {s : Settings} {p : Profile.ElementProfile}

/-- Strict mode has a conflict if and only if declarations diverge, provided that their names can be
written: a name that cannot may end a compilation earlier. -/
lemma conflict_iff_diverges (hs : s.NoCollision (.ofRoots p.roots)) (hstrict : s.mode = .strict)
    (hspelled : Spelled (.ofRoots p.roots)) :
    (∃ name count, compile s p = .error (.conflict name count)) ↔ s.Diverges p.roots := by
  have hends := ends_compileRoots hs.grounded (valid_start s (.ofRoots p.roots) p.uri)
  constructor
  · rintro ⟨name, count, h⟩
    obtain (h | ⟨h, -⟩) | ⟨-, fault, h⟩ := hends.error _ h
    · exact h.diverges
    · exact absurd hspelled h
    · cases h
  · intro hdiv
    cases h : compile s p with
    | ok schema => exact absurd hdiv (not_diverges_of_rootFits hstrict (hends.ok schema h).roots)
    | error e =>
      obtain (h | ⟨h, -⟩) | ⟨h, -⟩ := hends.error e h
      · obtain ⟨name, count, rfl⟩ := h.conflict
        exact ⟨name, count, rfl⟩
      · exact absurd hspelled h
      · exact absurd hdiv (h hstrict)

lemma no_conflict_of_permissive (hs : s.NoCollision (.ofRoots p.roots))
    (hmode : s.mode = .permissive) (name : String) (count : Nat) :
    compile s p ≠ .error (.conflict name count) := by
  intro h
  have hends := ends_compileRoots hs.grounded (valid_start s (.ofRoots p.roots) p.uri)
  obtain (h | ⟨-, fault, h⟩) | ⟨-, fault, h⟩ := hends.error _ h
  · have hstrict := h.strict
    rw [hmode] at hstrict
    cases hstrict
  · cases h
  · cases h

lemma digest_permissive {path : Trail} {d : Declaration}
    (h : (Forest.ofRoots p.roots).at? path = some d) :
    ((Subject.of (s.inMode .permissive) path d).digest.run (.start p.uri)).1 =
      .ok (s.fingerprint d) := by
  have hstart := known_start (s.inMode .permissive) (.ofRoots p.roots) p.uri
  have hends := computes_digest d path h (.start p.uri) hstart
  have hjudge : (s.inMode .permissive).judge d = .ok (s.fingerprint d) :=
    Settings.judge_permissive rfl d
  cases hr : ((Subject.of (s.inMode .permissive) path d).digest.run (.start p.uri)).1 with
  | ok digest =>
    have hd := hends.ok digest hr
    rw [hjudge] at hd
    cases hd
    rfl
  | error e =>
    have he := hends.error e hr
    rw [hjudge] at he
    cases he

end

lemma Settings.Diverges.congr {s s' : Settings} (h : ∀ d, s.fingerprint d = s'.fingerprint d)
    {ds : List Declaration} (hd : s.Diverges ds) : s'.Diverges ds := by
  induction hd with
  | here ha hb hname hne => exact .here ha hb hname (by rwa [← h, ← h])
  | inside hd _ ih => exact .inside hd ih

lemma diverges_inMode (s : Settings) (mode : MergeMode) {ds : List Declaration} :
    (s.inMode mode).Diverges ds ↔ s.Diverges ds :=
  ⟨.congr (fingerprint_inMode s mode), .congr fun d => (fingerprint_inMode s mode d).symm⟩

/-- How the two modes compare on a document. -/
structure ModesCompare (s : Settings) (source : Source) : Prop where
  /-- The digest of a declaration in permissive mode is its fingerprint. -/
  fingerprint : ∀ path d, (Forest.ofRoots source.profile.roots).at? path = some d →
    ((Subject.of (s.inMode .permissive) path d).digest.run (.start source.uri)).1 =
      .ok (s.fingerprint d)
  /-- Strict mode has a conflict if and only if declarations of one name have different fingerprints
  among the roots or among the elements in some declaration. -/
  diverges :
    (∃ name count, compile (s.inMode .strict) source.profile = .error (.conflict name count)) ↔
    s.Diverges source.profile.roots
  /-- It has one if and only if permissive mode warns. -/
  warned :
    (∃ name count, compile (s.inMode .strict) source.profile = .error (.conflict name count)) ↔
    ∃ count name, .divergent count name ∈
    logged source (run (s.inMode .permissive) source.profile).2
  /-- The conflict is the first one that permissive mode warns of. -/
  first : ∀ name count, compile (s.inMode .strict) source.profile = .error (.conflict name count) ↔
    (logged source (run (s.inMode .permissive) source.profile).2).find? isDivergent =
      some (.divergent count name)
  /-- Else the results are the same, and so is all that is said and known at the end. -/
  otherwise :
    (∀ name count, compile (s.inMode .strict) source.profile ≠ .error (.conflict name count)) →
    run (s.inMode .strict) source.profile = run (s.inMode .permissive) source.profile

/-- The result of strict mode by what permissive mode tells. -/
lemma compile_strict (s : Settings) (p : Profile.ElementProfile) :
    match divergences (run (s.inMode .permissive) p).2.events with
    | [] => run (s.inMode .strict) p = run (s.inMode .permissive) p
    | (count, name) :: _ => compile (s.inMode .strict) p = .error (.conflict name count) := by
  obtain ⟨new, hevents, hcase⟩ := follows_compileRoots s p.roots (.start p.uri)
  have hnew : (run (s.inMode .permissive) p).2.events = new := by
    rw [← List.append_nil new]
    exact hevents
  rw [hnew]
  exact hcase

/-- The first divergence that permissive mode tells of is the conflict of strict mode. -/
lemma conflict_iff_first {s : Settings} {source : Source}
    (hs : s.NoCollision (.ofRoots source.profile.roots)) (name : String) (count : Nat) :
    compile (s.inMode .strict) source.profile = .error (.conflict name count) ↔
      (logged source (run (s.inMode .permissive) source.profile).2).find? isDivergent =
        some (.divergent count name) := by
  have hnone := no_conflict_of_permissive (noCollision_inMode hs .permissive) rfl name count
  have hstrict := compile_strict s source.profile
  rw [← List.head?_filter, filter_logged]
  split at hstrict
  · rename_i hd
    rw [compile] at hnone ⊢
    rw [hstrict, hd]
    simp only [hnone, List.map_nil, List.head?_nil, reduceCtorEq]
  · rename_i count' name' _ hd
    rw [hstrict, hd]
    simp only [List.map_cons, List.head?_cons, Except.error.injEq, ConversionError.conflict.injEq,
      Option.some.injEq, Notice.divergent.injEq]
    exact and_comm

/-- Strict mode rejects the documents in which declarations diverge, and changes nothing else. -/
theorem strict_rejects_divergence {s : Settings} {octets : List UInt8} {document : Node}
    {source : Source} (hread : Xml.ofOctets? octets = some document)
    (hdoc : Source.ofDocument document = .ok source)
    (hs : s.NoCollision (.ofRoots source.profile.roots)) : ModesCompare s source := by
  have hspelled := spelled_of_isLegal (Profile.isLegal_holder (Xml.isLegal_ofOctets hread) hdoc)
  refine ⟨fun path d h => digest_permissive h, ?_, ?_, conflict_iff_first hs, ?_⟩
  · rw [← diverges_inMode s .strict]
    exact conflict_iff_diverges (noCollision_inMode hs .strict) rfl hspelled
  · simp only [conflict_iff_first hs]
    exact exists_find_divergent
  · intro hnone
    have hstrict := compile_strict s source.profile
    split at hstrict
    · exact hstrict
    · exact absurd hstrict (hnone _ _)

/-- A document with two elements of one name, a text and a number. -/
def quarrel : List UInt8 :=
  ("<XMLProfile><DataElements><XMLElement name='a'/>" ++
    "<XMLElement name='a' dataType='number'/></DataElements></XMLProfile>").toList.map
    fun c => UInt8.ofNat c.toNat

def quarrelFacts : List Profile.Facts :=
  [⟨"a", .string, [], ⟨1, .finite 1⟩, []⟩, ⟨"a", .decimal, [], ⟨1, .finite 1⟩, []⟩]

def decimalText : String :=
  "\x7b\"attributes\":[],\"children\":[],\"facets\":[],\"order\":[],\"type\":\"xs:decimal\"\x7d"

def decimalDigest : String := "365f4649794d8b9d918aefce0e2dba3f38e414c93cc7232315cb679ef6c5f7c0"

lemma sha256_decimalText : Digest.sha256 decimalText = decimalDigest := by decide +kernel

lemma read_quarrel : ((Xml.ofOctets? quarrel).bind fun document =>
    (Source.ofDocument document).toOption.map fun source =>
      (source.uri, source.profile.roots.map fun d => (d.facts, d.children.isEmpty))) =
    some (none, quarrelFacts.map fun f => (f, true)) := by decide +kernel

lemma eq_of_leaf_facts {roots : List Declaration} {facts : List Profile.Facts}
    (h : roots.map (fun d => (d.facts, d.children.isEmpty)) = facts.map fun f => (f, true)) :
    roots = facts.map fun f => .mk f [] := by
  induction roots generalizing facts with
  | nil =>
    cases facts with
    | nil => rfl
    | cons f facts => cases h
  | cons d roots ih =>
    cases facts with
    | nil => cases h
    | cons f facts =>
      obtain ⟨g, children⟩ := d
      simp only [List.map_cons, List.cons.injEq, Prod.mk.injEq, List.isEmpty_iff] at h
      obtain ⟨⟨hf, hchildren⟩, hrest⟩ := h
      rw [List.map_cons, ← ih hrest, ← hf, ← hchildren]
      rfl

/-- The texts of a text and of a number with their digests. -/
def quarrelTable : List (String × String) := [(leafText, leafDigest), (decimalText, decimalDigest)]

lemma digest_quarrelTable (mode : MergeMode) :
    ∀ e ∈ quarrelTable, (Settings.standard mode true).digest e.1 = e.2 := by
  simpa [quarrelTable, Settings.standard] using ⟨sha256_leafText, sha256_decimalText⟩

lemma compile_quarrel :
    compile (.standard .strict true) ⟨none, quarrelFacts.map fun f => .mk f []⟩ =
    .error (.conflict "a" 2) := by
  rw [← Settings.digest_table quarrelTable (digest_quarrelTable .strict)]
  decide +kernel

lemma noCollision_quarrel : (Settings.standard .permissive true).NoCollision
    (.ofRoots (quarrelFacts.map fun f => .mk f [])) :=
  Settings.noCollision_of_table quarrelTable (digest_quarrelTable .permissive) (by decide)
    (by decide +kernel)

/-- The document with the two elements is refused in strict mode. -/
theorem quarrel_rejected : ∃ document source, Xml.ofOctets? quarrel = some document ∧
    Source.ofDocument document = .ok source ∧
    compile (.standard .strict true) source.profile = .error (.conflict "a" 2) ∧
    ModesCompare (.standard .permissive true) source := by
  obtain ⟨document, hread, hsource⟩ := Option.bind_eq_some_iff.mp read_quarrel
  obtain ⟨source, hdoc, hparts⟩ := Option.map_eq_some_iff.mp hsource
  have hdoc := eq_ok_of_toOption hdoc
  obtain ⟨huri, hfacts⟩ := Prod.mk.inj hparts
  have hroots := eq_of_leaf_facts hfacts
  have hs := noCollision_quarrel
  have hcompile := compile_quarrel
  rw [← hroots] at hs hcompile
  rw [← huri] at hcompile
  exact ⟨document, source, hread, hdoc, hcompile, strict_rejects_divergence hread hdoc hs⟩

end SchemaLoom.Xsd
