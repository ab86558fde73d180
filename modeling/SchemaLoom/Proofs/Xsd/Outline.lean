import SchemaLoom.Proofs.Xsd.Recall

/-! The outline of a declaration: its structure to the last leaf, apart from any text or digest.
Digests tell apart just those declarations whose outlines differ. -/
namespace SchemaLoom.Xsd
open Profile (Declaration Facts Primitive Facet AttributeUse Siblings Forest)

/-- The structure of a declaration: its own name where that counts, its facts, and of the elements
of each name in it, in the order in which the names first occur, their range and the outline of the
first. -/
inductive Outline where
  | mk (name : Option String) (primitive : Primitive) (facets : List Facet)
    (attributes : List AttributeUse) (elements : List (String × Profile.Range × Outline))

namespace Settings

def outline (s : Settings) : Declaration → Outline :=
  Declaration.foldGroups fun f gs =>
    .mk (if s.shareAcrossNames then none else some f.name) f.primitive f.facets f.attributes
      (gs.map fun g => (g.name, g.range (·.1.range), g.first.2))

/-- What an outline says of a group. -/
def line (s : Settings) (g : Siblings Declaration) : String × Profile.Range × Outline :=
  (g.name, g.range Declaration.range, s.outline g.first)

theorem outline_eq (s : Settings) (d : Declaration) : s.outline d =
    .mk (if s.shareAcrossNames then none else some d.name) d.primitive d.facets d.attributes
      (d.groups.map s.line) := by
  rw [outline, Declaration.foldGroups_eq, List.map_map]
  congr 1
  apply List.map_congr_left
  intro g _
  simp only [Function.comp_apply, Siblings.map_name, Siblings.map_first, Siblings.map_range, line]
  rfl

/-- No two different texts have one digest, of all that are hashed for the outlines of two
declarations. -/
def Apart (s : Settings) (a b : Declaration) : Prop :=
  ∀ d e, LeadsFrom a d → LeadsFrom b e → s.fingerprint d = s.fingerprint e → s.textOf d = s.textOf e

end Settings

lemma LeadsFrom.inside {d e : Declaration} {g : Siblings Declaration} (hg : g ∈ d.groups)
    (h : LeadsFrom g.first e) : LeadsFrom d e := by
  obtain rfl | h := h
  · exact .inr (.here hg)
  · exact .inr (.inside hg h)

section
variable {s : Settings} {a b : Declaration}

lemma Settings.NoCollision.apart {F : Forest} (hs : s.NoCollision F) (ha : F.Has a) (hb : F.Has b) :
    s.Apart a b := by
  have hhas {d e : Declaration} (hd : F.Has d) (h : LeadsFrom d e) : F.Has e := by
    obtain rfl | h := h
    · exact hd
    · exact hd.leads h
  exact fun d e hd he => hs d e (hhas ha hd) (hhas hb he)

lemma Settings.Apart.first (hs : s.Apart a b) {g k : Siblings Declaration} (hg : g ∈ a.groups)
    (hk : k ∈ b.groups) : s.Apart g.first k.first :=
  fun d e hd he => hs d e (hd.inside hg) (he.inside hk)

/-- Declarations of one fingerprint have one outline. The induction is on the first of the two: what
their texts say of the groups in them is the same, digests of smaller declarations included. -/
theorem outline_eq_of_fingerprint_eq : ∀ a b : Declaration, s.Apart a b →
    s.fingerprint a = s.fingerprint b → s.outline a = s.outline b := by
  intro a
  induction a using Declaration.induction with
  | h f children ih =>
    intro b hs hab
    obtain ⟨hp, hf, ha, he, hn⟩ := Settings.parts_of_textOf_eq (hs _ b (.inl rfl) (.inl rfl) hab)
    have hlines := map_eq_map_of_keys (f := s.line) he fun g hg k hk hgk => by
      obtain ⟨hname, hrange, hdigest⟩ := Entry.mk.inj hgk
      have hinner := ih g.first (Declaration.first_mem_children hg) k.first (hs.first hg hk) hdigest
      rw [Settings.line, Settings.line, hname, hrange, hinner]
    have hname : (if s.shareAcrossNames then none else some (Declaration.mk f children).name) =
        if s.shareAcrossNames then none else some b.name := by
      cases hshare : s.shareAcrossNames with
      | true => rfl
      | false => rw [hn hshare]
    rw [Settings.outline_eq, Settings.outline_eq, hp, hf, ha, hlines, hname]

lemma signature_congr {withName : Bool} {f f' : Facts} {entries : List Entry}
    (hp : f.primitive = f'.primitive) (hf : f.facets = f'.facets)
    (ha : f.attributes = f'.attributes) (hn : withName → f.name = f'.name) :
    signature withName f entries = signature withName f' entries := by
  unfold signature signatureValue
  cases withName with
  | true => rw [hp, hf, ha, hn rfl]
  | false => simp only [hp, hf, ha, Bool.false_eq_true, if_false]

/-- Declarations of one outline have one canonical text, and so one fingerprint. -/
theorem textOf_eq_of_outline_eq : ∀ a b : Declaration, s.outline a = s.outline b →
    s.textOf a = s.textOf b := by
  intro a
  induction a using Declaration.induction with
  | h f children ih =>
    intro b hab
    rw [Settings.outline_eq, Settings.outline_eq] at hab
    obtain ⟨hname, hp, hf, ha, hlines⟩ := Outline.mk.inj hab
    have hentries := map_eq_map_of_keys (f := s.entry) hlines fun g hg k _ hgk => by
      simp only [Settings.line, Prod.mk.injEq] at hgk
      obtain ⟨hname, hrange, hinner⟩ := hgk
      have htext := ih g.first (Declaration.first_mem_children hg) k.first hinner
      rw [Settings.entry, Settings.entry, hname, hrange, Settings.fingerprint,
        Settings.fingerprint, htext]
    rw [Settings.textOf_eq, Settings.textOf_eq, hentries]
    refine signature_congr hp hf ha fun hwith => ?_
    have hshare : s.shareAcrossNames = false := by simpa using hwith
    rw [hshare] at hname
    exact Option.some.inj hname

theorem fingerprint_eq_iff (hs : s.Apart a b) :
    s.fingerprint a = s.fingerprint b ↔ s.outline a = s.outline b :=
  ⟨outline_eq_of_fingerprint_eq a b hs, fun h => congrArg s.digest (textOf_eq_of_outline_eq a b h)⟩

/-- A digest that is asked for after any calls is the fingerprint. -/
lemma Place.eq_fingerprint {F : Forest} {uri : Option String} {calls : List (Call F)} {x : Place F}
    {digest : String} (h : x.digestAfter s uri calls = .ok digest) :
    digest = s.fingerprint x.declaration := by
  rw [Place.digestAfter, x.digest_eq (sound_after calls (sound_start s F uri)).known] at h
  exact ((s.judgedRight _).ok digest h).1

end

/-- Two digests, of elements of any two documents after any calls, are equal just where the outlines
of the elements are. -/
theorem digests_decide_outlines {s : Settings} {F G : Forest} {uri uri' : Option String}
    {calls : List (Call F)} {calls' : List (Call G)} {x : Place F} {y : Place G}
    {digest digest' : String} (hx : x.digestAfter s uri calls = .ok digest)
    (hy : y.digestAfter s uri' calls' = .ok digest') (hs : s.Apart x.declaration y.declaration) :
    digest = digest' ↔ s.outline x.declaration = s.outline y.declaration := by
  rw [Place.eq_fingerprint hx, Place.eq_fingerprint hy]
  exact fingerprint_eq_iff hs

/-! ## Names with marks in them -/

/-- An element with a leaf of some name in it. -/
def holding (name : String) : Declaration :=
  .mk ⟨"list", .string, [], ⟨1, .finite 1⟩, []⟩ [leaf name]

def quoted : Declaration := holding "a\""

def slashed : Declaration := holding "a\\"

def holdingText (written : String) : String :=
  "\x7b\"attributes\":[],\"children\":[[\"" ++ written ++ "\",1,1,\"" ++ leafDigest ++
    "\"]],\"facets\":[],\"order\":[\"" ++ written ++ "\"],\"type\":\"xs:string\"\x7d"

def quotedDigest : String := "ac4b19be488a9e2cdd88a89e57c43c943ad522954e8a3ca86394ab8723f285cd"

def slashedDigest : String := "2e967ccbf331aab9fe99f8f1f1fddf5a99c4c85316a4d33c31d25b7a599887f5"

lemma sha256_quotedText : Digest.sha256 (holdingText "a\\\"") = quotedDigest := by decide +kernel

lemma sha256_slashedText : Digest.sha256 (holdingText "a\\\\") = slashedDigest := by decide +kernel

def marksTable : List (String × String) :=
  [(leafText, leafDigest), (holdingText "a\\\"", quotedDigest),
    (holdingText "a\\\\", slashedDigest)]

lemma digest_marksTable :
    ∀ e ∈ marksTable, (Settings.standard .permissive true).digest e.1 = e.2 := by
  simpa [marksTable, Settings.standard] using ⟨sha256_leafText, sha256_quotedText,
    sha256_slashedText⟩

lemma noCollision_marks :
    (Settings.standard .permissive true).NoCollision (.ofRoots [quoted, slashed]) :=
  Settings.noCollision_of_table marksTable digest_marksTable (by decide) (by decide +kernel)

def quotedPlace : Place (.ofRoots [quoted]) := ⟨[0], quoted, rfl⟩

def slashedPlace : Place (.ofRoots [slashed]) := ⟨[0], slashed, rfl⟩

lemma outline_marks : (Settings.standard .permissive true).outline quoted ≠
    (Settings.standard .permissive true).outline slashed := by
  intro h
  rw [Settings.outline_eq, Settings.outline_eq] at h
  obtain ⟨-, -, -, -, hlines⟩ := Outline.mk.inj h
  have hnames := congrArg (List.map Prod.fst) hlines
  revert hnames
  decide

/-- An element with a name in it that ends in a quote is told from one with a backslash there. -/
theorem marks_told_apart : ∃ digest digest',
    quotedPlace.digestAfter (.standard .permissive true) none [] = .ok digest ∧
      slashedPlace.digestAfter (.standard .permissive true) none [.mergeChildren slashedPlace] =
      .ok digest' ∧
      (Settings.standard .permissive true).Apart quoted slashed ∧ digest ≠ digest' := by
  have hx := quotedPlace.digestAfter_permissive (s := .standard .permissive true) rfl none []
  have hy := slashedPlace.digestAfter_permissive (s := .standard .permissive true) rfl none
    [.mergeChildren slashedPlace]
  have hs := noCollision_marks.apart (a := quoted) (b := slashed) (Forest.has_of_mem (by simp))
    (Forest.has_of_mem (by simp))
  exact ⟨_, _, hx, hy, hs, mt (digests_decide_outlines hx hy hs).mp outline_marks⟩

end SchemaLoom.Xsd
