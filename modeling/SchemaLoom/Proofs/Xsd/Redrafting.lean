import SchemaLoom.Proofs.Xsd.Drafting
import SchemaLoom.Proofs.Xsd.Outline

/-! What is drafted for declarations depends on their outlines: of the elements of one name it
counts what the first of them is, and how often all of them occur. Declarations of one fingerprint
are drafted alike because they have one outline. -/
namespace SchemaLoom.Xsd
open Profile (Declaration Siblings Forest Range ElementProfile)

/-- What outlines say of declarations. -/
def Settings.lines (s : Settings) (ds : List Declaration) : List (String × Range × Outline) :=
  (Siblings.byName Declaration.name ds).map s.line

section
variable {s : Settings} {F : Forest}

/-- An outline tells whether there are elements in a declaration. -/
lemma isEmpty_of_outline {a b : Declaration} (h : s.outline a = s.outline b) :
    a.children.isEmpty = b.children.isEmpty := by
  rw [Settings.outline_eq, Settings.outline_eq] at h
  obtain ⟨-, -, -, -, hlines⟩ := Outline.mk.inj h
  rw [Bool.eq_iff_iff, List.isEmpty_iff, List.isEmpty_iff, ← Declaration.groups_eq_nil,
    ← Declaration.groups_eq_nil, ← List.map_eq_nil_iff (f := s.line), hlines, List.map_eq_nil_iff]

lemma leafContentOf_of_outline {a b : Declaration} (h : s.outline a = s.outline b) :
    leafContentOf a.facts = leafContentOf b.facts := by
  rw [Settings.outline_eq, Settings.outline_eq] at h
  obtain ⟨-, hp, hf, ha, -⟩ := Outline.mk.inj h
  exact leafContentOf_congr hp hf ha

lemma draftParticle_of_line {qualified : Bool} {g k : Siblings Declaration}
    (h : s.line g = s.line k)
    (hbody : s.draftBody qualified g.first = s.draftBody qualified k.first) :
    s.draftParticle qualified (g.map (s.drafted qualified)) =
      s.draftParticle qualified (k.map (s.drafted qualified)) := by
  simp only [Settings.line, Prod.mk.injEq] at h
  obtain ⟨hname, hrange, hfirst⟩ := h
  have hdigest : s.fingerprint g.first = s.fingerprint k.first :=
    congrArg s.digest (textOf_eq_of_outline_eq _ _ hfirst)
  rw [Settings.draftParticle_eq, Settings.draftParticle_eq, hname, hrange, hdigest, hbody,
    isEmpty_of_outline hfirst, leafContentOf_of_outline hfirst]

/-- The draft of a body depends on the outline of its declaration only. -/
theorem draftBody_of_outline (qualified : Bool) : ∀ a b : Declaration, s.outline a = s.outline b →
    s.draftBody qualified a = s.draftBody qualified b := by
  intro a
  induction a using Declaration.induction with
  | h f children ih =>
    intro b hab
    have hinner := hab
    rw [Settings.outline_eq, Settings.outline_eq] at hinner
    obtain ⟨-, hp, hf, hat, hlines⟩ := Outline.mk.inj hinner
    have hempty : (Declaration.mk f children).groups.isEmpty = b.groups.isEmpty := by
      have hlists := congrArg List.isEmpty hlines
      rwa [List.isEmpty_map, List.isEmpty_map] at hlists
    have hparticles :=
      mapM_congr_of_keys (f := fun g => s.draftParticle qualified (g.map (s.drafted qualified)))
      hlines fun g hg k _ hgk => draftParticle_of_line hgk
        (ih _ (Declaration.first_mem_children hg) _ (congrArg (·.2.2) hgk))
    funext name
    rw [Settings.draftBody_eq, Settings.draftBody_eq, hempty, leafBodyOf_congr hp hf hat,
      hparticles, hat]

/-- The draft of a profile depends on what outlines say of its root declarations. -/
theorem draft_of_lines {p p' : ElementProfile} (huri : p.uri = p'.uri)
    (h : s.lines p.roots = s.lines p'.roots) :
    s.draft p = s.draft p' := by
  have hroots := mapM_congr_of_keys (f := s.draftRoot p.uri.isSome) h fun g _ k _ hgk => by
    simp only [Settings.line, Prod.mk.injEq] at hgk
    obtain ⟨hname, -, hfirst⟩ := hgk
    have hdigest : s.fingerprint g.first = s.fingerprint k.first :=
      congrArg s.digest (textOf_eq_of_outline_eq _ _ hfirst)
    rw [Settings.draftRoot, Settings.draftRoot, hname, hdigest,
      draftBody_of_outline p.uri.isSome _ _ hfirst]
  rw [Settings.draft, hroots, huri, Settings.draft]

/-! ## Drafts of one fingerprint -/

variable (hs : s.NoCollision F)
include hs

/-- The draft of a body depends on the fingerprint of its declaration only. -/
theorem draftBody_congr (qualified : Bool) (a b : Declaration) (ha : F.Has a) (hb : F.Has b)
    (hab : s.fingerprint a = s.fingerprint b) : s.draftBody qualified a = s.draftBody qualified b :=
  draftBody_of_outline qualified a b (outline_eq_of_fingerprint_eq a b (hs.apart ha hb) hab)

/-- The draft of a profile depends on what canonical texts say of its root declarations. -/
theorem draft_congr {p p' : ElementProfile} (huri : p.uri = p'.uri) (hp : ∀ d ∈ p.roots, F.Has d)
    (hp' : ∀ d ∈ p'.roots, F.Has d) (h : (Siblings.byName Declaration.name p.roots).map s.entry =
      (Siblings.byName Declaration.name p'.roots).map s.entry) : s.draft p = s.draft p' := by
  refine draft_of_lines huri (map_eq_map_of_keys h fun g hg k hk hgk => ?_)
  obtain ⟨hname, hrange, hdigest⟩ := Entry.mk.inj hgk
  have hapart := hs.apart (hp _ (Siblings.first_mem hg)) (hp' _ (Siblings.first_mem hk))
  rw [Settings.line, Settings.line, hname, hrange, outline_eq_of_fingerprint_eq _ _ hapart hdigest]

end
end SchemaLoom.Xsd
