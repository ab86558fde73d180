import SchemaLoom.Proofs.Traversal
import SchemaLoom.Proofs.Xsd.Fingerprint

/-! Digests without memory, and what they find: in strict mode the digest of a declaration fails
just where same-named elements differ somewhere in it, and in every mode it is the fingerprint
else. -/
namespace SchemaLoom.Xsd
open Profile (Declaration Facts Siblings ConversionError)

/-- A declaration and its digest, unless its digest fails. -/
abbrev Judged := Declaration × Except ConversionError String

namespace Settings

/-- Merges declarations whose digests are known. -/
def mergeJudged (s : Settings) (g : Siblings Judged) : Except ConversionError Unit :=
  if g.others.isEmpty then return ()
  else do
    let digests ← g.members.mapM (·.2)
    if !digests.all (some · == digests.head?) then
      match s.mode with
      | .strict => throw (.conflict g.name g.count)
      | .permissive => return ()

/-- The entry of a group whose digests are known. -/
def entryJudged (g : Siblings Judged) : Except ConversionError Entry := do
  return ⟨g.name, g.range (·.1.range), ← g.first.2⟩

/-- The digest of a declaration, computed without memory. -/
def judge (s : Settings) : Declaration → Except ConversionError String :=
  Declaration.foldGroups fun f gs => do
    gs.forM s.mergeJudged
    let entries ← gs.mapM entryJudged
    return s.digest (signature (!s.shareAcrossNames) f entries)

/-- What the memory should hold of a declaration. -/
def withJudgement (s : Settings) (d : Declaration) : Judged := (d, s.judge d)

theorem judge_eq (s : Settings) (d : Declaration) : s.judge d = do
    (d.groups.map (Siblings.map s.withJudgement)).forM s.mergeJudged
    let entries ← (d.groups.map (Siblings.map s.withJudgement)).mapM entryJudged
    return s.digest (signature (!s.shareAcrossNames) d.facts entries) :=
  Declaration.foldGroups_eq _ d

/-- Declarations of a group have different fingerprints. -/
def Split (s : Settings) (g : Siblings Declaration) : Prop :=
  ∃ a ∈ g.members, ∃ b ∈ g.members, s.fingerprint a ≠ s.fingerprint b

/-- Among declarations, or somewhere inside of one of them, those of one name differ. -/
inductive Diverges (s : Settings) : List Declaration → Prop
  | here {ds : List Declaration} {a b : Declaration} (ha : a ∈ ds) (hb : b ∈ ds)
    (hname : a.name = b.name) (hne : s.fingerprint a ≠ s.fingerprint b) : Diverges s ds
  | inside {ds : List Declaration} {d : Declaration} (hd : d ∈ ds) (h : Diverges s d.children) :
    Diverges s ds

/-- Declarations are refused with an error: strict mode finds that some of one name differ. -/
structure Refused (s : Settings) (ds : List Declaration) (e : ConversionError) : Prop where
  strict : s.mode = .strict
  diverges : s.Diverges ds
  conflict : ∃ name count, e = .conflict name count

/-- The digest of a declaration is its fingerprint, or it is refused for what is in it. -/
structure JudgedRight (s : Settings) (d : Declaration) : Prop where
  ok : ∀ digest, s.judge d = .ok digest →
    digest = s.fingerprint d ∧ (s.mode = .strict → ¬s.Diverges d.children)
  error : ∀ e, s.judge d = .error e → s.Refused d.children e

lemma JudgedRight.of_ok {s : Settings} {d : Declaration} (h : s.judge d = .ok (s.fingerprint d))
    (hdiv : s.mode = .strict → ¬s.Diverges d.children) : s.JudgedRight d where
  ok digest hd := by
    rw [h] at hd
    cases hd
    exact ⟨rfl, hdiv⟩
  error e he := by
    rw [h] at he
    cases he

lemma JudgedRight.of_error {s : Settings} {d : Declaration} {e : ConversionError}
    (h : s.judge d = .error e) (hr : s.Refused d.children e) : s.JudgedRight d where
  ok digest hd := by
    rw [h] at hd
    cases hd
  error e' he := by
    rw [h] at he
    cases he
    exact hr

section
variable {s : Settings} {g : Siblings Declaration}

lemma Diverges.of_split {ds : List Declaration} (hg : g ∈ Siblings.byName Declaration.name ds)
    (h : s.Split g) : s.Diverges ds := by
  obtain ⟨a, ha, b, hb, hne⟩ := h
  have hname : a.name = b.name :=
    (Siblings.name_eq_of_mem_members hg ha).trans (Siblings.name_eq_of_mem_members hg hb).symm
  exact .here (Siblings.mem_of_mem_members hg ha) (Siblings.mem_of_mem_members hg hb) hname hne

/-- A divergence is a group that is split, or is inside of a member of a group. -/
theorem diverges_iff {ds : List Declaration} : s.Diverges ds ↔
    ∃ g ∈ Siblings.byName Declaration.name ds,
      s.Split g ∨ ∃ m ∈ g.members, s.Diverges m.children := by
  constructor
  · intro h
    cases h with
    | here ha hb hname hne =>
      rename_i a b
      obtain ⟨g, hg, hga, hag⟩ := Siblings.exists_mem_members Declaration.name ha
      have hbg : b ∈ g.members := by
        rw [(Siblings.mem_byName.mp hg).2]
        simp [hb, hga, hname]
      exact ⟨g, hg, .inl ⟨a, hag, b, hbg, hne⟩⟩
    | inside hd h =>
      obtain ⟨g, hg, -, hdg⟩ := Siblings.exists_mem_members Declaration.name hd
      exact ⟨g, hg, .inr ⟨_, hdg, h⟩⟩
  · rintro ⟨g, hg, h | ⟨m, hm, h⟩⟩
    · exact .of_split hg h
    · exact .inside (Siblings.mem_of_mem_members hg hm) h

lemma digests_eq {ms : List Declaration} (hm : ∀ m ∈ ms, s.JudgedRight m) {digests : List String}
    (h : ms.mapM s.judge = .ok digests) : digests = ms.map s.fingerprint := by
  have hall := mapM_eq_ok.mp h
  clear h
  induction hall with
  | nil => rfl
  | cons hx _ ih =>
    rw [List.map_cons, ← ih fun m hm' => hm m (by simp [hm'])]
    rw [((hm _ (by simp)).ok _ hx).1]

lemma agree_iff : ((g.members.map s.fingerprint).all
    (some · == (g.members.map s.fingerprint).head?)) = true ↔ ¬s.Split g := by
  simp only [Siblings.members, List.map_cons, List.head?_cons, List.all_eq_true, beq_iff_eq,
    Option.some.injEq, Split, not_exists, not_and, not_not]
  constructor
  · intro h a ha b hb
    have hfirst : ∀ c ∈ g.first :: g.others, s.fingerprint c = s.fingerprint g.first :=
      fun c hc => h _ (by rw [← List.map_cons]; exact List.mem_map_of_mem hc)
    rw [hfirst a ha, hfirst b hb]
  · intro h x hx
    rw [← List.map_cons] at hx
    obtain ⟨a, ha, rfl⟩ := List.mem_map.mp hx
    exact h a ha g.first (by simp)

lemma mergeJudged_single (h : g.others = []) : s.mergeJudged (g.map s.withJudgement) = .ok () := by
  simp only [mergeJudged, Siblings.map_others, h, List.map_nil, List.isEmpty_nil, if_true]
  rfl

lemma mergeJudged_several (h : g.others ≠ []) : s.mergeJudged (g.map s.withJudgement) = (do
    let digests ← g.members.mapM s.judge
    if !digests.all (some · == digests.head?) then
      match s.mode with
      | .strict => throw (.conflict g.name g.count)
      | .permissive => return ()) := by
  obtain ⟨m, ms, ho⟩ := List.exists_cons_of_ne_nil h
  simp only [mergeJudged, Siblings.map_others, ho, List.map_cons, List.isEmpty_cons,
    Bool.false_eq_true, if_false, Siblings.map_members, Siblings.map_name,
    Siblings.map_count, List.mapM_map]
  rfl

lemma mergeJudged_agree (ho : g.others ≠ [])
    (hd : g.members.mapM s.judge = .ok (g.members.map s.fingerprint)) (h : ¬s.Split g) :
    s.mergeJudged (g.map s.withJudgement) = .ok () := by
  rw [mergeJudged_several ho, hd]
  change (if (!List.all _ _) = true then _ else _) = _
  rw [agree_iff.mpr h]
  rfl

lemma mergeJudged_split (ho : g.others ≠ [])
    (hd : g.members.mapM s.judge = .ok (g.members.map s.fingerprint)) (h : s.Split g) :
    s.mergeJudged (g.map s.withJudgement) = match s.mode with
      | .strict => .error (.conflict g.name g.count)
      | .permissive => .ok () := by
  rw [mergeJudged_several ho, hd]
  change (if (!List.all _ _) = true then _ else _) = _
  rw [Bool.eq_false_iff.mpr (mt agree_iff.mp (not_not.mpr h))]
  rfl

/-- Merging a group fails where its declarations differ, or one of them is refused. -/
lemma mergeJudged_error (hm : ∀ m ∈ g.members, s.JudgedRight m) {e : ConversionError}
    (h : s.mergeJudged (g.map s.withJudgement) = .error e) :
    s.mode = .strict ∧ (s.Split g ∨ ∃ m ∈ g.members, s.Diverges m.children) ∧
      ∃ name count, e = .conflict name count := by
  by_cases ho : g.others = []
  · rw [mergeJudged_single ho] at h
    cases h
  cases hd : g.members.mapM s.judge with
  | error e' =>
    rw [mergeJudged_several ho, hd] at h
    cases h
    obtain ⟨m, hmem, he⟩ := exists_of_mapM_eq_error hd
    obtain ⟨hs, hdiv, hconf⟩ := (hm m hmem).error e he
    exact ⟨hs, .inr ⟨m, hmem, hdiv⟩, hconf⟩
  | ok digests =>
    obtain rfl := digests_eq hm hd
    by_cases hsplit : s.Split g
    · rw [mergeJudged_split ho hd hsplit] at h
      cases hs : s.mode with
      | strict =>
        rw [hs] at h
        cases h
        exact ⟨rfl, .inl hsplit, _, _, rfl⟩
      | permissive =>
        rw [hs] at h
        cases h
    · rw [mergeJudged_agree ho hd hsplit] at h
      cases h

/-- Strict mode merges a group of several where they agree and none of them is refused. -/
lemma mergeJudged_ok (hm : ∀ m ∈ g.members, s.JudgedRight m) (hs : s.mode = .strict)
    (h : s.mergeJudged (g.map s.withJudgement) = .ok ()) :
    ¬s.Split g ∧ (g.others = [] ∨ ∀ m ∈ g.members, ¬s.Diverges m.children) := by
  by_cases ho : g.others = []
  · refine ⟨?_, .inl ho⟩
    rintro ⟨a, ha, b, hb, hne⟩
    simp only [Siblings.members, ho, List.mem_singleton] at ha hb
    exact hne (by rw [ha, hb])
  cases hd : g.members.mapM s.judge with
  | error e' =>
    rw [mergeJudged_several ho, hd] at h
    cases h
  | ok digests =>
    refine ⟨fun hsplit => ?_, .inr fun m hmem => ?_⟩
    · obtain rfl := digests_eq hm hd
      rw [mergeJudged_split ho hd hsplit, hs] at h
      cases h
    · obtain ⟨digest, -, hdigest⟩ := exists_of_mem_left (mapM_eq_ok.mp hd) hmem
      exact ((hm m hmem).ok digest hdigest).2 hs

/-- A group that strict mode merges diverges nowhere, if it does not inside of its first member. -/
lemma not_diverges_of_merged (hm : ∀ m ∈ g.members, s.JudgedRight m) (hs : s.mode = .strict)
    (h : s.mergeJudged (g.map s.withJudgement) = .ok ()) (hfirst : ¬s.Diverges g.first.children) :
    ¬(s.Split g ∨ ∃ m ∈ g.members, s.Diverges m.children) := by
  obtain ⟨hsplit, hmembers⟩ := mergeJudged_ok hm hs h
  rintro (hcase | ⟨m, hmem, hdiv⟩)
  · exact hsplit hcase
  · obtain ho | hmembers := hmembers
    · simp only [Siblings.members, ho, List.mem_singleton] at hmem
      exact hfirst (hmem ▸ hdiv)
    · exact hmembers m hmem hdiv

lemma entryJudged_eq (s : Settings) (g : Siblings Declaration) :
    entryJudged (g.map s.withJudgement) =
      s.judge g.first >>= fun digest => .ok ⟨g.name, g.range Declaration.range, digest⟩ := by
  have hr : (g.map s.withJudgement).range (·.1.range) = g.range Declaration.range := g.map_range _ _
  rw [entryJudged, hr]
  rfl

lemma entryJudged_ok (hm : s.JudgedRight g.first) {e : Entry}
    (h : entryJudged (g.map s.withJudgement) = .ok e) :
    e = s.entry g ∧ (s.mode = .strict → ¬s.Diverges g.first.children) := by
  rw [entryJudged_eq] at h
  cases hd : s.judge g.first with
  | error e' =>
    rw [hd] at h
    cases h
  | ok digest =>
    rw [hd] at h
    cases h
    obtain ⟨rfl, hdiv⟩ := hm.ok digest hd
    exact ⟨rfl, hdiv⟩

lemma entryJudged_error (hm : s.JudgedRight g.first) {e : ConversionError}
    (h : entryJudged (g.map s.withJudgement) = .error e) : s.Refused g.first.children e := by
  rw [entryJudged_eq] at h
  cases hd : s.judge g.first with
  | error e' =>
    rw [hd] at h
    cases h
    exact hm.error e hd
  | ok digest =>
    rw [hd] at h
    cases h

/-- The entries of groups whose first members are judged right. -/
lemma entriesJudged_ok {gs : List (Siblings Declaration)} {entries : List Entry}
    (hm : ∀ g ∈ gs, s.JudgedRight g.first)
    (h : (gs.map (Siblings.map s.withJudgement)).mapM entryJudged = .ok entries) :
    entries = gs.map s.entry ∧ (s.mode = .strict → ∀ g ∈ gs, ¬s.Diverges g.first.children) := by
  rw [mapM_eq_ok, List.forall₂_map_left_iff] at h
  induction h with
  | nil => simp
  | cons hg _ ih =>
    obtain ⟨rfl, hdiv⟩ := entryJudged_ok (hm _ (by simp)) hg
    obtain ⟨rfl, hrest⟩ := ih fun k hk => hm k (by simp [hk])
    refine ⟨rfl, fun hs => ?_⟩
    rw [List.forall_mem_cons]
    exact ⟨hdiv hs, hrest hs⟩

end

/-- In strict mode the digest of a declaration fails just where declarations in it diverge; where it
does not fail it is the fingerprint, in both modes. -/
theorem judgedRight (s : Settings) : ∀ d, s.JudgedRight d := by
  intro d
  induction d using Declaration.induction with
  | h f children ih =>
    set d : Declaration := .mk f children with hd
    have hall : ∀ g ∈ d.groups, ∀ m ∈ g.members, s.JudgedRight m :=
      fun g hg m hm => ih m (Siblings.mem_of_mem_members hg hm)
    have hfirst : ∀ g ∈ d.groups, s.JudgedRight g.first :=
      fun g hg => hall g hg _ g.first_mem_members
    have hinside : ∀ g ∈ d.groups, (s.Split g ∨ ∃ m ∈ g.members, s.Diverges m.children) →
        s.Diverges d.children := fun g hg h => diverges_iff.mpr ⟨g, hg, h⟩
    cases hmerge : (d.groups.map (Siblings.map s.withJudgement)).forM s.mergeJudged with
    | error e =>
      obtain ⟨k, hk, he⟩ := exists_of_forM_eq_error hmerge
      obtain ⟨g, hg, rfl⟩ := List.mem_map.mp hk
      obtain ⟨hs, hdiv, hconf⟩ := mergeJudged_error (hall g hg) he
      refine .of_error ?_ ⟨hs, hinside g hg hdiv, hconf⟩
      rw [judge_eq, hmerge]
      rfl
    | ok u =>
      cases hentries : (d.groups.map (Siblings.map s.withJudgement)).mapM entryJudged with
      | error e =>
        obtain ⟨k, hk, he⟩ := exists_of_mapM_eq_error hentries
        obtain ⟨g, hg, rfl⟩ := List.mem_map.mp hk
        obtain ⟨hs, hdiv, hconf⟩ := entryJudged_error (hfirst g hg) he
        refine .of_error ?_ ⟨hs, hinside g hg (.inr ⟨_, g.first_mem_members, hdiv⟩), hconf⟩
        rw [judge_eq, hmerge, hentries]
        rfl
      | ok entries =>
        obtain ⟨rfl, hnext⟩ := entriesJudged_ok hfirst hentries
        refine .of_ok ?_ fun hs hdiv => ?_
        · rw [judge_eq, hmerge, hentries, fingerprint, textOf_eq]
          rfl
        obtain ⟨g, hg, hcase⟩ := diverges_iff.mp hdiv
        have hmerged := forM_eq_ok.mp hmerge _ (List.mem_map_of_mem hg)
        exact not_diverges_of_merged (hall g hg) hs hmerged (hnext hs g hg) hcase

/-- Declarations of which a group cannot be merged are refused. -/
theorem refused_of_mergeJudged {s : Settings} {ds : List Declaration} {g : Siblings Declaration}
    {e : ConversionError} (hg : g ∈ Siblings.byName Declaration.name ds)
    (h : s.mergeJudged (g.map s.withJudgement) = .error e) : s.Refused ds e := by
  obtain ⟨hs, hdiv, hconf⟩ := mergeJudged_error (fun m _ => s.judgedRight m) h
  exact ⟨hs, diverges_iff.mpr ⟨g, hg, hdiv⟩, hconf⟩

/-- In permissive mode every declaration has its fingerprint for its digest. -/
theorem judge_permissive {s : Settings} (hs : s.mode = .permissive) (d : Declaration) :
    s.judge d = .ok (s.fingerprint d) := by
  cases h : s.judge d with
  | error e =>
    have hstrict := ((s.judgedRight d).error e h).strict
    rw [hs] at hstrict
    cases hstrict
  | ok digest => rw [((s.judgedRight d).ok digest h).1]

end Settings
end SchemaLoom.Xsd
