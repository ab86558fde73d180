import SchemaLoom.Proofs.Xsd.Extension

/-! Where the types of a schema come from. Each of them shows a declaration that counts, part by
part, and this also where different declarations have one digest. -/
namespace SchemaLoom.Xsd
open Profile (Declaration Facts Siblings Forest Trail Source ElementProfile)
open Xml (Node)

/-- A content shows a declaration: it refers to some type where there are elements in it, and says
all that the declaration does where there are none. -/
inductive Content.Shows (d : Declaration) : Content → Prop
  | named (hne : d.children ≠ []) (reference : String) : Shows d (.named reference)
  | leaf (hnil : d.children = []) : Shows d (leafContentOf d.facts)

/-- A particle shows a group of declarations. -/
structure Particle.Shows (g : Siblings Declaration) (p : Particle) : Prop where
  name : p.name = g.name
  range : p.range = g.range Declaration.range
  content : p.content.Shows g.first

/-- A body shows a declaration. -/
inductive TypeBody.Shows (d : Declaration) : TypeBody → Prop
  | sequence {particles : List Particle} (hne : d.children ≠ [])
    (h : List.Forall₂ Particle.Shows d.groups particles) :
    Shows d (.sequence particles d.attributes)
  | leaf (hnil : d.children = []) : Shows d (leafBodyOf d.facts)

lemma TypeBody.Shows.particles {d : Declaration} {particles : List Particle}
    {attributes : List Profile.AttributeUse}
    (h : (TypeBody.sequence particles attributes).Shows d) :
    List.Forall₂ Particle.Shows d.groups particles := by
  generalize hsequence : TypeBody.sequence particles attributes = body at h
  cases h with
  | leaf hnil => exact absurd hsequence.symm (leafBodyOf_ne_sequence _ _ _)
  | sequence hne h => exact (TypeBody.sequence.inj hsequence).1 ▸ h

/-- A declaration counts if it and all declarations around it stand first in their groups. -/
def Counts (roots : List Declaration) (d : Declaration) : Prop :=
  ∃ g ∈ Siblings.byName Declaration.name roots, LeadsFrom g.first d

lemma Counts.root {roots : List Declaration} {g : Siblings Declaration}
    (hg : g ∈ Siblings.byName Declaration.name roots) : Counts roots g.first := ⟨g, hg, .inl rfl⟩

lemma Counts.first {roots : List Declaration} {d : Declaration} (hd : Counts roots d)
    {g : Siblings Declaration} (hg : g ∈ d.groups) : Counts roots g.first := by
  obtain ⟨k, hk, hlead⟩ := hd
  refine ⟨k, hk, .inr ?_⟩
  obtain rfl | hlead := hlead
  · exact .here hg
  · exact hlead.trans (.here hg)

lemma Counts.has {roots : List Declaration} {d : Declaration} (h : Counts roots d) :
    (Forest.ofRoots roots).Has d := by
  obtain ⟨g, hg, hlead⟩ := h
  have hroot := Forest.has_of_mem (Siblings.first_mem hg)
  obtain rfl | hlead := hlead
  · exact hroot
  · exact hroot.leads hlead

/-- The types of a registry show declarations that count. -/
def Registry.Traced (roots : List Declaration) (r : Registry) : Prop :=
  ∀ t ∈ r.types, ∃ d, Counts roots d ∧ t.body.Shows d

lemma Registry.Traced.register {roots : List Declaration} {r : Registry} (h : r.Traced roots)
    {t : TypeDefinition} {d : Declaration} (hd : Counts roots d) (ht : t.body.Shows d) :
    (r.register t).Traced roots := by
  intro u hu
  obtain rfl | hu := Registry.eq_or_mem_of_mem_register hu
  · exact ⟨d, hd, ht⟩
  · exact h u hu

/-- Compiling keeps the types of the registry traced. -/
abbrev tracing (s : Settings) (roots : List Declaration) : Discipline :=
  keeping s (.ofRoots roots) (Registry.Traced roots)

section
variable {s : Settings} {roots : List Declaration}

lemma traces_typeFor {g : Siblings Subject} (hg : g.first.Stands s (.ofRoots roots))
    (hcounts : Counts roots g.first.declaration)
    (hbody : ∀ name, Yields (tracing s roots) (g.first.body name) (·.Shows g.first.declaration))
    (preferred : String) :
    Upholds s (.ofRoots roots) (Registry.Traced roots) (typeFor g preferred) := by
  unfold typeFor
  refine .bind (.of_computes hg.digest) fun digest => .get_bind fun c _ => ?_
  cases c.registry.find? digest with
  | some t => exact .bind (.of_computes (computes_tell _)) fun _ => .pure _
  | none =>
    refine .get_bind fun c' _ =>
      .bind (.modify (f := fun r => (r.allocate preferred).2) fun r hr => hr) fun _ => ?_
    change Yields (tracing s roots) _ fun _ => True
    refine .bind (hbody _) fun body hshows => ?_
    set made : TypeDefinition := ⟨(c'.registry.allocate preferred).1, digest, body⟩
    exact .skip (Upholds.modify (f := (·.register made)) fun r hr => hr.register hcounts hshows)
      fun _ => .pure trivial

lemma traces_particleOf {g : Siblings Subject}
    (htype : Upholds s (.ofRoots roots) (Registry.Traced roots) (typeFor g (typeNameBase g.name))) :
    Yields (tracing s roots) (particleOf g) (Particle.Shows (g.map Subject.declaration)) := by
  have hrange : rangeOf g = (g.map Subject.declaration).range Declaration.range :=
    (Siblings.map_range Subject.declaration g Declaration.range).symm
  unfold particleOf
  dsimp only
  split
  · rename_i hne
    refine .skip htype fun name => .get_bind fun c _ => .pure ⟨rfl, hrange, ?_⟩
    exact .named (by simpa using hne) _
  · rename_i hnil
    refine .bind (computes_leafContent _ _).yields fun content hcontent => .pure ⟨rfl, hrange, ?_⟩
    cases hcontent
    exact .leaf (by simpa using hnil)

/-- The body of a declaration that counts shows it. -/
theorem traces_body : ∀ (d : Declaration) (path : Trail), (Forest.ofRoots roots).at? path = some d →
    Counts roots d →
    ∀ name, Yields (tracing s roots) ((Subject.of s path d).body name) (·.Shows d) := by
  intro d
  induction d using Declaration.induction with
  | h f children ih =>
    intro path hpath hcounts name
    change Yields (tracing s roots) (bodyOf s path f (Subject.ofAll s path 0 children) name) _
    rw [bodyOf_eq]
    refine .skip (upholds_mergeAll fun x hx => Subject.stands_ofAll hpath hx) fun _ => ?_
    split
    · rename_i hne
      have hparticles : Yields (tracing s roots)
          ((groups (Subject.ofAll s path 0 children)).mapM particleOf)
          (List.Forall₂ Particle.Shows (Declaration.mk f children).groups) := by
        have hmap := groups_map (Subject.ofAll s path 0 children)
        rw [Subject.declaration_ofAll] at hmap
        have hgroups : (Declaration.mk f children).groups =
            (groups (Subject.ofAll s path 0 children)).map (Siblings.map Subject.declaration) :=
              hmap.symm
        have hsame (ps : List Particle) :
            List.Forall₂ Particle.Shows (Declaration.mk f children).groups ps ↔
            List.Forall₂ (fun g => Particle.Shows (g.map Subject.declaration))
              (groups (Subject.ofAll s path 0 children)) ps := by
                rw [hgroups, List.forall₂_map_left_iff]
        refine (Yields.mapM fun g hg => ?_).mono fun ps => (hsame ps).mpr
        obtain ⟨hst, hgroup, -⟩ := first_of_mem_groups hpath hg
        have hfirst := hcounts.first hgroup
        refine traces_particleOf (traces_typeFor hst hfirst (fun name => ?_) _)
        rw [hst.eq_of]
        simp only [Subject.of_declaration]
        exact ih _ (Declaration.first_mem_children hgroup) _ hst.at_path hfirst name
      refine .skip (upholds_requireLegal name) fun _ => .bind hparticles fun ps hps => ?_
      refine .skip (Upholds.of_computes (computes_readAttributes path f)) fun _ => .pure ?_
      exact .sequence (by simpa [Declaration.children] using hne) hps
    · rename_i hnil
      refine (computes_leafBody path f name).yields.mono fun body hbody => ?_
      obtain ⟨-, rfl⟩ := underName_eq_ok hbody
      exact .leaf (by simpa [Declaration.children] using hnil)

lemma traces_rootOf {g : Siblings Subject} (hg : g ∈ groups (Subject.ofAll s [] 0 roots)) :
    Upholds s (.ofRoots roots) (Registry.Traced roots) (rootOf s g) := by
  have hstands := Subject.stands_of_mem_group hg
  have hfirst := hstands _ g.first_mem_members
  have hgroup := List.mem_map_of_mem (f := Siblings.map Subject.declaration) hg
  rw [groups_map, Subject.declaration_ofAll] at hgroup
  refine upholds_rootOf hstands (traces_typeFor hfirst (.root hgroup) (fun name => ?_) _)
  rw [hfirst.eq_of]
  simp only [Subject.of_declaration]
  exact traces_body _ _ hfirst.at_path (.root hgroup) name

end

/-- Every type of a schema shows a declaration that counts. -/
theorem traced_of_compile {s : Settings} {p : ElementProfile} {schema : Schema}
    (h : compile s p = .ok schema) :
    ∀ t ∈ schema.types, ∃ d, Counts p.roots d ∧ t.body.Shows d := by
  obtain ⟨declared, c, hrun, hmake⟩ := compile_eq_ok_iff_run.mp h
  have hroots : Upholds s (.ofRoots p.roots) (Registry.Traced p.roots)
      ((groups (Subject.ofAll s [] 0 p.roots)).mapM (rootOf s)) :=
        .mapM fun g hg => traces_rootOf hg
  have hends := hroots (.start p.uri)
      ⟨known_start s _ p.uri, by simp [Registry.Traced, Context.start, Registry.empty]⟩
  have htraced := hends.holds.2
  rw [hrun] at htraced
  rw [make_eq_ok hmake]
  exact htraced

end SchemaLoom.Xsd
