import SchemaLoom.Proofs.Xsd.Compiling
import SchemaLoom.Proofs.Xsd.Judgement

/-! Remembered digests are transparent: in every context whose memory is right, the digest of a
place is what it would be without memory, or fails in the same way, and the memory stays right. -/
namespace SchemaLoom.Xsd
open Profile (Declaration Facts Siblings Forest Trail Event ConversionError)

/-! ## Declarations where they stand -/

namespace Subject

@[simp] theorem of_path (s : Settings) (path : Trail) (d : Declaration) :
    (of s path d).path = path := by
  cases d
  rfl

@[simp] theorem of_declaration (s : Settings) (path : Trail) (d : Declaration) :
    (of s path d).declaration = d := by
  cases d
  rfl

theorem declaration_ofAll (s : Settings) (path : Trail) (k : Nat) (ds : List Declaration) :
    (ofAll s path k ds).map declaration = ds := by
  induction ds generalizing k with
  | nil => rfl
  | cons d ds ih => simp [ofAll, ih]

@[simp] theorem ofAll_eq_nil {s : Settings} {path : Trail} {k : Nat} {ds : List Declaration} :
    ofAll s path k ds = [] ↔ ds = [] := by cases ds <;> simp [ofAll]

theorem mem_ofAll {s : Settings} {path : Trail} {k : Nat} {ds : List Declaration} {x : Subject}
    (h : x ∈ ofAll s path k ds) : ∃ i d, ds[i]? = some d ∧ x = of s (path ++ [k + i]) d := by
  induction ds generalizing k with
  | nil => simp [ofAll] at h
  | cons d ds ih =>
    obtain rfl | h := List.mem_cons.mp h
    · exact ⟨0, d, rfl, rfl⟩
    · obtain ⟨i, e, he, rfl⟩ := ih h
      exact ⟨i + 1, e, he, by rw [Nat.add_assoc, Nat.add_comm 1 i]⟩

/-- A subject is the declaration at its place. -/
structure Stands (s : Settings) (F : Forest) (x : Subject) : Prop where
  at_path : F.at? x.path = some x.declaration
  eq_of : x = of s x.path x.declaration

theorem stands_of {s : Settings} {F : Forest} {path : Trail} {d : Declaration}
    (h : F.at? path = some d) : Stands s F (of s path d) := ⟨by simpa using h, by simp⟩

theorem Stands.has {s : Settings} {F : Forest} {x : Subject} (h : x.Stands s F) :
    F.Has x.declaration :=
  ⟨x.path, h.at_path⟩

theorem stands_ofAll {s : Settings} {F : Forest} {path : Trail} {d : Declaration}
    (h : F.at? path = some d) {x : Subject} (hx : x ∈ ofAll s path 0 d.children) :
    x.Stands s F := by
  obtain ⟨i, e, he, rfl⟩ := mem_ofAll hx
  exact stands_of (by rw [F.step h, Nat.zero_add, he])

theorem stands_roots {s : Settings} {roots : List Declaration} {x : Subject}
    (hx : x ∈ ofAll s [] 0 roots) : x.Stands s (Forest.ofRoots roots) := by
  obtain ⟨i, e, he, rfl⟩ := mem_ofAll hx
  exact stands_of (by simp [Forest.ofRoots, he, Declaration.at?])

end Subject

/-- The groups of subjects are those of their declarations. -/
theorem groups_map (xs : List Subject) : (groups xs).map (Siblings.map Subject.declaration) =
    Siblings.byName Declaration.name (xs.map Subject.declaration) := by
  rw [Siblings.byName_map]
  rfl

theorem Subject.stands_of_mem_group {s : Settings} {roots : List Declaration} {g : Siblings Subject}
    (hg : g ∈ groups (ofAll s [] 0 roots)) : ∀ x ∈ g.members, x.Stands s (Forest.ofRoots roots) :=
  fun _ hx => stands_roots (Siblings.mem_of_mem_members hg hx)

/-! ## Digests with memory -/

/-- What is remembered of places is right. -/
def Known (s : Settings) (F : Forest) (c : Context) : Prop :=
  ∀ path digest, (path, digest) ∈ c.digests → ∃ d, F.at? path = some d ∧ s.judge d = .ok digest

/-- Digests add to the memory and to the events only. -/
def remembering (s : Settings) (F : Forest) : Discipline where
  holds := Known s F
  moves c c' := c'.uri = c.uri ∧ c'.registry = c.registry
  refl _ := ⟨rfl, rfl⟩
  trans h h' := ⟨h'.1.trans h.1, h'.2.trans h.2⟩

section
variable {s : Settings} {F : Forest}

theorem known_start (s : Settings) (F : Forest) (uri : Option String) : Known s F (.start uri) := by
  intro path digest h
  simp [Context.start] at h

lemma known_cons {c : Context} {path : Trail} {d : Declaration} {digest : String} (hc : Known s F c)
    (hpath : F.at? path = some d) (hd : s.judge d = .ok digest) :
    Known s F { c with digests := (path, digest) :: c.digests } := by
  intro p a hmem
  obtain heq | hmem := List.mem_cons.mp hmem
  · cases heq
    exact ⟨d, hpath, hd⟩
  · exact hc p a hmem

lemma computes_tell (e : Event) : Computes (remembering s F) (tell e) (.ok ()) :=
  fun _ hc => .modify hc ⟨rfl, rfl⟩ rfl

lemma computes_tellAll {α : Type} (xs : List α) (e : α → Event) :
    Computes (remembering s F) (xs.forM fun x => tell (e x)) (.ok ()) := by
  induction xs with
  | nil => exact .pure ()
  | cons x xs ih => exact .bind (computes_tell _) fun _ _ => ih

lemma computes_readAttributes (path : Trail) (f : Facts) :
    Computes (remembering s F) (readAttributes path f) (.ok ()) := computes_tellAll _ _

/-- The members of a group have the digests that they have without memory. -/
def DigestsRight (s : Settings) (F : Forest) (g : Siblings Subject) : Prop :=
  ∀ x ∈ g.members, Computes (remembering s F) x.digest (s.judge x.declaration)

/-- A group of subjects as a group of judged declarations. -/
abbrev judgedGroup (s : Settings) (g : Siblings Subject) : Siblings Judged :=
  g.map fun x => s.withJudgement x.declaration

lemma judgedGroup_eq (s : Settings) (g : Siblings Subject) :
    judgedGroup s g = (g.map Subject.declaration).map s.withJudgement :=
  (Siblings.map_map Subject.declaration s.withJudgement g).symm

lemma groups_judged (s : Settings) (xs : List Subject) : (groups xs).map (judgedGroup s) =
    (Siblings.byName Declaration.name (xs.map Subject.declaration)).map
      (Siblings.map s.withJudgement) := by
  rw [← groups_map, List.map_map]
  apply List.map_congr_left
  intro g _
  exact judgedGroup_eq s g

lemma computes_merge {g : Siblings Subject} (h : DigestsRight s F g) :
    Computes (remembering s F) (merge s g) (s.mergeJudged (judgedGroup s g)) := by
  unfold merge Settings.mergeJudged
  simp only [Siblings.map_name, Siblings.map_count]
  refine .skip (computes_tellAll _ _) ?_
  cases ho : g.others with
  | nil =>
    simp only [Siblings.map_others, ho, List.map_nil, List.isEmpty_nil, Bool.not_true, if_true,
      Bool.false_eq_true, if_false]
    exact .pure ()
  | cons x xs =>
    simp only [Siblings.map_others, ho, List.map_cons, List.isEmpty_cons, Bool.not_false, if_true,
      Bool.false_eq_true, if_false, Siblings.map_members]
    refine .bind (.mapM fun x hx => h x hx) fun digests _ => ?_
    split
    · cases s.mode with
      | strict => exact .throw _
      | permissive => exact computes_tell _
    · exact .pure ()

lemma computes_mergeAll {gs : List (Siblings Subject)} (h : ∀ g ∈ gs, DigestsRight s F g) :
    Computes (remembering s F) (mergeAll s gs) ((gs.map (judgedGroup s)).forM s.mergeJudged) :=
  .forM fun g hg => computes_merge (h g hg)

lemma computes_entryOf {g : Siblings Subject} (h : DigestsRight s F g) :
    Computes (remembering s F) (entryOf g) (Settings.entryJudged (judgedGroup s g)) := by
  unfold entryOf Settings.entryJudged
  refine .bind (h g.first g.first_mem_members) fun digest _ => ?_
  have hr : (judgedGroup s g).range (·.1.range) = rangeOf g := g.map_range _ _
  rw [hr]
  exact .pure _

lemma mem_of_lookup {table : List (Trail × String)} {path : Trail} {digest : String}
    (h : table.lookup path = some digest) : (path, digest) ∈ table := by
  obtain ⟨l, r, rfl, -⟩ := List.lookup_eq_some_iff.mp h
  simp

/-- In a context whose memory is right a digest is what it is without memory. -/
theorem computes_digest : ∀ (d : Declaration) (path : Trail), F.at? path = some d →
    Computes (remembering s F) (Subject.of s path d).digest (s.judge d) := by
  intro d
  induction d using Declaration.induction with
  | h f children ih =>
    intro path hpath c hc
    change Ends _ (digestOf s path f (Subject.ofAll s path 0 children)) _ _ c
    unfold digestOf
    refine .get_bind ?_
    cases hl : c.digests.lookup path with
    | some digest =>
      obtain ⟨d, hd, hj⟩ := hc path digest (mem_of_lookup hl)
      obtain rfl := Option.some.inj (hd.symm.trans hpath)
      exact .pure hc hj
    | none =>
      set subjects := Subject.ofAll s path 0 children
      have hright : ∀ g ∈ groups subjects, DigestsRight s F g := by
        intro g hg x hx
        obtain ⟨i, e, he, rfl⟩ := Subject.mem_ofAll (Siblings.mem_of_mem_members hg hx)
        rw [Subject.of_declaration]
        exact ih e (List.mem_of_getElem? he) _ (by rw [F.step hpath, Nat.zero_add]; exact he)
      have hgroups : (Declaration.mk f children).groups.map (Siblings.map s.withJudgement) =
          (groups subjects).map (judgedGroup s) := by
        rw [groups_judged, Subject.declaration_ofAll]
        rfl
      have hjudge := s.judge_eq (.mk f children)
      rw [hgroups] at hjudge
      have hcompute : Computes (remembering s F) (do
          mergeAll s (groups subjects)
          tell (.facetsRead path)
          readAttributes path f
          let entries ← (groups subjects).mapM entryOf
          let digest := s.digest (signature (!s.shareAcrossNames) f entries)
          modify fun c => { c with digests := (path, digest) :: c.digests }
          return digest) (s.judge (.mk f children)) := by
        rw [hjudge]
        refine .bind (computes_mergeAll hright) fun _ hmerged => ?_
        refine .skip (computes_tell _) ?_
        refine .skip (computes_readAttributes _ _) ?_
        refine .bind (.mapM fun g hg => computes_entryOf (hright g hg)) fun entries hentries => ?_
        have hdigest : s.judge (.mk f children) =
            .ok (s.digest (signature (!s.shareAcrossNames) f entries)) := by
          rw [hjudge, hmerged, hentries]
          rfl
        refine .skip (fun c hc => .modify ?_ ⟨rfl, rfl⟩ rfl) (.pure _)
        exact known_cons hc hpath hdigest
      exact hcompute c hc

end
end SchemaLoom.Xsd
