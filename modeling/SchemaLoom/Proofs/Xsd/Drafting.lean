import SchemaLoom.Proofs.Xsd.Modes
import SchemaLoom.Proofs.Xsd.Roots

/-! A compilation without memory, merges and events: what is put into the registry for declarations,
read off their fingerprints. Where declarations may be merged, a compilation does just that. -/
namespace SchemaLoom.Xsd
open Profile (Declaration Facts Siblings Forest Trail Event ConversionError ElementProfile placed
  placedGroups)

/-- Work on a registry, which ends where a document cannot hold what is to be written. -/
abbrev Drafting := StateT Registry (Except Xml.BuildFault)

/-- The name of the type of a digest: of one that is there already, or of one made now. -/
def draftType (digest preferred : String)
    (body : String → Drafting TypeBody) : Drafting String := do
  match (← get).find? digest with
  | some t => return t.name
  | none =>
    let name := ((← get).allocate preferred).1
    modify fun r => (r.allocate preferred).2
    let content ← body name
    modify fun r => r.register ⟨name, digest, content⟩
    return name

lemma drafting_bind_eq_ok {α β : Type} {p : Drafting α} {k : α → Drafting β}
    {r r'' : Registry} {b : β} (h : (p >>= k).run r = .ok (b, r'')) :
    ∃ a r', p.run r = .ok (a, r') ∧ (k a).run r' = .ok (b, r'') := by
  rw [StateT.run_bind] at h
  obtain ⟨⟨a, r'⟩, hp, hk⟩ := bind_eq_ok h
  exact ⟨a, r', hp, hk⟩

/-- A name that is looked at leaves the registry alone. -/
lemma eq_of_run_legal {name : String} {r r' : Registry} {u : Unit}
    (h : (Xml.legal name : Drafting Unit).run r = .ok (u, r')) : r' = r := by
  cases hlegal : Xml.legal name with
  | ok u' =>
    rw [hlegal] at h
    cases h
    rfl
  | error fault =>
    rw [hlegal] at h
    cases h

lemma draftType_of_find {digest preferred : String}
    {body : String → Drafting TypeBody} {r : Registry} {t : TypeDefinition}
    (h : r.find? digest = some t) :
    (draftType digest preferred body).run r = .ok (t.name, r) := by
  change (match r.find? digest with
    | some t => pure t.name
    | none => _ : Drafting String).run r = _
  rw [h]
  rfl

lemma draftType_of_new {digest preferred : String}
    {body : String → Drafting TypeBody} {r : Registry} (h : r.find? digest = none) :
    (draftType digest preferred body).run r = (do
      let name := (r.allocate preferred).1
      let (content, r') ← (body name).run (r.allocate preferred).2
      return (name, r'.register ⟨name, digest, content⟩)) := by
  change (match r.find? digest with
    | some t => _
    | none => _ : Drafting String).run r = _
  rw [h]
  rfl

/-- A type is there already, or a name is taken for it and its body is drafted under that name. -/
lemma draftType_cases {digest preferred name : String} {body : String → Drafting TypeBody}
    {r r' : Registry} (h : (draftType digest preferred body).run r = .ok (name, r')) :
    (∃ t, r.find? digest = some t ∧ name = t.name ∧ r' = r) ∨
      r.find? digest = none ∧ name = (r.allocate preferred).1 ∧ ∃ content r₁,
        (body (r.allocate preferred).1).run (r.allocate preferred).2 = .ok (content, r₁) ∧
          r' = r₁.register ⟨(r.allocate preferred).1, digest, content⟩ := by
  cases hfind : r.find? digest with
  | some t =>
    rw [draftType_of_find hfind] at h
    cases h
    exact .inl ⟨t, rfl, rfl, rfl⟩
  | none =>
    rw [draftType_of_new hfind] at h
    obtain ⟨⟨content, r₁⟩, hcontent, hrest⟩ := bind_eq_ok h
    cases hrest
    exact .inr ⟨rfl, rfl, content, r₁, hcontent, rfl⟩

/-- A declaration and how its body is drafted under some name. -/
abbrev Drafted := Declaration × (String → Drafting TypeBody)

namespace Settings

def draftParticle (s : Settings) (qualified : Bool) (g : Siblings Drafted) : Drafting Particle := do
  if g.first.1.children.isEmpty then
    return ⟨g.name, g.range (·.1.range), leafContentOf g.first.1.facts⟩
  else
    let name ← draftType (s.fingerprint g.first.1) (typeNameBase g.name) g.first.2
    return ⟨g.name, g.range (·.1.range), .named (qualify qualified name)⟩

/-- The body of the type of a declaration, under some name. -/
def draftBody (s : Settings) (qualified : Bool) : Declaration → String → Drafting TypeBody :=
  Declaration.foldGroups fun f gs name => do
    Xml.legal name
    if gs.isEmpty then return leafBodyOf f
    else return .sequence (← gs.mapM (s.draftParticle qualified)) f.attributes

def drafted (s : Settings) (qualified : Bool) (d : Declaration) : Drafted :=
  (d, s.draftBody qualified d)

theorem draftParticle_eq (s : Settings) (qualified : Bool) (g : Siblings Declaration) :
    s.draftParticle qualified (g.map (s.drafted qualified)) =
      if g.first.children.isEmpty then
        pure ⟨g.name, g.range Declaration.range, leafContentOf g.first.facts⟩
      else do
        let name ← draftType (s.fingerprint g.first) (typeNameBase g.name)
          (s.draftBody qualified g.first)
        return ⟨g.name, g.range Declaration.range, .named (qualify qualified name)⟩ := by
  have hrange : (g.map (s.drafted qualified)).range (·.1.range) = g.range Declaration.range :=
    g.map_range _ _
  rw [draftParticle, hrange]
  rfl

theorem draftBody_eq (s : Settings) (qualified : Bool) (d : Declaration) (name : String) :
    s.draftBody qualified d name = do
      Xml.legal name
      if d.groups.isEmpty then return leafBodyOf d.facts
      else
        let particles ← d.groups.mapM fun g =>
        s.draftParticle qualified (g.map (s.drafted qualified))
        return .sequence particles d.attributes := by
  rw [draftBody, Declaration.foldGroups_eq]
  simp only [List.isEmpty_map, List.mapM_map]
  rfl

/-- What holds of drafts put together from such drafts holds of a body, if it holds of the check of
its name and of the types that are made for the elements in it. -/
theorem closed_draftBody {s : Settings} {qualified : Bool} {P : ∀ γ : Type, Drafting γ → Prop}
    (hpure : ∀ (γ : Type) (c : γ), P γ (pure c))
    (hbind : ∀ (γ δ : Type) (p : Drafting γ) (k : γ → Drafting δ), P γ p →
    (∀ c, P δ (k c)) → P δ (p >>= k)) {d : Declaration} {name : String} (hlegal :
    P Unit (Xml.legal name))
    (htype : ∀ g ∈ d.groups, P String
      (draftType (s.fingerprint g.first) (typeNameBase g.name) (s.draftBody qualified g.first))) :
    P TypeBody (s.draftBody qualified d name) := by
  rw [draftBody_eq]
  refine hbind _ _ _ _ hlegal fun _ => ?_
  split
  · exact hpure _ _
  · refine hbind _ _ _ _ (closed_mapM hpure hbind fun g hg => ?_) fun particles => hpure _ _
    rw [draftParticle_eq]
    split
    · exact hpure _ _
    · exact hbind _ _ _ _ (htype g hg) fun name => hpure _ _

def draftRoot (s : Settings) (qualified : Bool) (g : Siblings Declaration) :
    Drafting (String × String) := do
  let name ← draftType (s.fingerprint g.first) (typeNameBase g.name) (s.draftBody qualified g.first)
  return (g.name, qualify qualified name)

/-- Declarations may be merged at every depth: strict mode finds none that diverge. -/
def Accepts (s : Settings) (ds : List Declaration) : Prop := s.mode = .strict → ¬s.Diverges ds

lemma Accepts.child {s : Settings} {ds : List Declaration} (h : s.Accepts ds)
    {d : Declaration} (hd : d ∈ ds) :
    s.Accepts d.children := fun hs hdiv => h hs (.inside hd hdiv)

/-- The schema of a profile, read off the fingerprints of its declarations. -/
def draft (s : Settings) (p : ElementProfile) : Except Xml.BuildFault Schema := do
  let (roots, registry) ← ((Siblings.byName Declaration.name p.roots).mapM
    (s.draftRoot p.uri.isSome)).run .empty
  Schema.make p.uri roots registry.types

end Settings

/-! ## Steps of a compilation and of a draft -/

/-- Where digests are known, a step has the result of a draft and does to the registry what the
draft does, and fails where the draft fails. -/
def Performs (s : Settings) (F : Forest) (uri : Option String) {α : Type} (m : Compiling α)
    (p : Drafting α) : Prop :=
  ∀ c, Known s F c → c.uri = uri → match p.run c.registry with
    | .ok (a, r) => ∃ c', m.run c = (.ok a, c') ∧ Known s F c' ∧ c'.uri = uri ∧ c'.registry = r
    | .error fault => (m.run c).1 = .error (.tree fault)

section
variable {s : Settings} {F : Forest} {uri : Option String} {α β γ : Type}

namespace Performs

theorem pure (a : α) : Performs s F uri (pure a) (pure a) := fun c hc hu => ⟨c, rfl, hc, hu, rfl⟩

theorem bind {m : Compiling α} {p : Drafting α} {f : α → Compiling β} {k : α → Drafting β}
    (hm : Performs s F uri m p) (hf : ∀ a, Performs s F uri (f a) (k a)) :
    Performs s F uri (m >>= f) (p >>= k) := by
  intro c hc hu
  have hstep := hm c hc hu
  rw [StateT.run_bind]
  cases hp : p.run c.registry with
  | error fault =>
    rw [hp] at hstep
    exact run_bind_error hstep f
  | ok done =>
    obtain ⟨a, r⟩ := done
    rw [hp] at hstep
    obtain ⟨c', hrun, hc', hu', rfl⟩ := hstep
    rw [run_bind, hrun]
    exact hf a c' hc' hu'

/-- A step that changes no registry is passed over. -/
theorem skip {m : Compiling α} {a : α} {f : α → Compiling β} {k : Drafting β}
    (hm : Computes (remembering s F) m (.ok a)) (hf : Performs s F uri (f a) k) :
    Performs s F uri (m >>= f) k := by
  intro c hc hu
  have hends := hm c hc
  rw [run_bind]
  rcases hrun : m.run c with ⟨e | b, c'⟩
  · have he := hends.error e (by rw [hrun])
    cases he
  · have hb := hends.ok b (by rw [hrun])
    cases hb
    have hknown := hends.holds
    obtain ⟨huri, hregistry⟩ := hends.moves
    rw [hrun] at hknown huri hregistry
    dsimp only at huri hregistry
    rw [← hregistry]
    exact hf c' hknown (huri.trans hu)

theorem of_computes {m : Compiling α} {a : α} (hm : Computes (remembering s F) m (.ok a)) :
    Performs s F uri m (Pure.pure a) := by
  rw [← bind_pure m]
  exact skip hm (pure a)

/-- A step that fails as it is computed to. -/
theorem fail_of_computes {m : Compiling α} {fault : Xml.BuildFault} {p : Drafting α}
    (hm : Computes (remembering s F) m (.error (.tree fault))) (hp : ∀ r, p.run r = .error fault) :
    Performs s F uri m p := by
  intro c hc _
  rw [hp]
  cases hrun : (m.run c).1 with
  | error e => exact ((hm c hc).error e hrun).symm
  | ok a => cases (hm c hc).ok a hrun

theorem get_bind {f : Context → Compiling β} {k : Registry → Drafting β}
    (h : ∀ c : Context, Performs s F uri (f c) (k c.registry)) :
    Performs s F uri (get >>= f) (get >>= k) := fun c hc hu => h c c hc hu

/-- Of a context that is read no more than its namespace may count. -/
theorem get_uri {f : Context → Compiling β} {p : Drafting β}
    (h : ∀ c, c.uri = uri → Performs s F uri (f c) p) : Performs s F uri (get >>= f) p :=
  fun c hc hu => h c hu c hc hu

theorem modify (f : Registry → Registry) : Performs s F uri
    (modify fun c => { c with registry := f c.registry }) (modify f) :=
  fun _ hc hu => ⟨_, rfl, hc, hu, rfl⟩

theorem mapM {xs : List α} {f : α → Compiling β} {k : α → Drafting β}
    (h : ∀ x ∈ xs, Performs s F uri (f x) (k x)) : Performs s F uri (xs.mapM f) (xs.mapM k) := by
  induction xs with
  | nil => exact pure []
  | cons x xs ih =>
    rw [List.mapM_cons, List.mapM_cons]
    refine bind (h x (by simp)) fun b => ?_
    exact bind (ih fun y hy => h y (by simp [hy])) fun bs => pure (b :: bs)

end Performs

lemma performs_requireLegal (name : String) :
    Performs s F uri (requireLegal name) (Xml.legal name) := by
  intro c hc hu
  unfold requireLegal
  cases hl : Xml.legal name with
  | ok u => exact ⟨c, rfl, hc, hu, rfl⟩
  | error fault => rfl

/-- A step that succeeds under legal names only is drafted behind the check of the name. -/
lemma performs_underName {m : Compiling α} {name : String} {a : α}
    (h : Computes (remembering s F) m (underName name a)) :
    Performs s F uri m (do
      Xml.legal name
      return a) := by
  unfold underName at h
  unfold Xml.legal
  by_cases hname : Xml.isLegalText name = true
  · rw [if_pos hname] at h ⊢
    exact .of_computes h
  · rw [if_neg hname] at h ⊢
    exact .fail_of_computes h fun _ => rfl

lemma performs_typeFor {g : Siblings Subject} {digest preferred : String}
    {body : String → Drafting TypeBody}
    (hdigest : Computes (remembering s F) g.first.digest (.ok digest))
    (hbody : ∀ name, Performs s F uri (g.first.body name) (body name)) :
    Performs s F uri (typeFor g preferred) (draftType digest preferred body) := by
  unfold typeFor draftType
  refine .skip hdigest (.get_bind fun c => ?_)
  cases c.registry.find? digest with
  | some t => exact .skip (computes_tell _) (.pure t.name)
  | none =>
    refine .get_bind fun c => .bind (.modify fun r => (r.allocate preferred).2) fun _ => ?_
    refine .bind (hbody _) fun content => ?_
    exact .bind (.modify fun r => r.register ⟨(c.registry.allocate preferred).1, digest, content⟩)
      fun _ => .pure _

lemma computes_digest_of_accepts {path : Trail} {d : Declaration} (hpath : F.at? path = some d)
    (haccepts : s.Accepts d.children) :
    Computes (remembering s F) (Subject.of s path d).digest (.ok (s.fingerprint d)) := by
  have hjudge : s.judge d = .ok (s.fingerprint d) := by
    cases hj : s.judge d with
    | error e =>
      obtain ⟨hstrict, hdiv, -⟩ := (s.judgedRight d).error e hj
      exact absurd hdiv (haccepts hstrict)
    | ok digest => rw [((s.judgedRight d).ok digest hj).1]
  exact hjudge ▸ computes_digest d path hpath

lemma computes_merge_of_accepts {xs : List Subject} {g : Siblings Subject} (hg : g ∈ groups xs)
    (hxs : ∀ x ∈ xs, x.Stands s F)
    (haccepts : s.Accepts (xs.map Subject.declaration)) :
    Computes (remembering s F) (merge s g) (.ok ()) := by
  have hmerge : Computes (remembering s F) (merge s g) _ := computes_merge fun x hx =>
    (hxs x (Siblings.mem_of_mem_members hg hx)).digest
  cases hjudged : s.mergeJudged (judgedGroup s g) with
  | ok u => exact hjudged ▸ hmerge
  | error e =>
    rw [judgedGroup_eq] at hjudged
    have hgroup := List.mem_map_of_mem (f := Siblings.map Subject.declaration) hg
    rw [groups_map] at hgroup
    obtain ⟨hstrict, hdiv, -⟩ := Settings.refused_of_mergeJudged hgroup hjudged
    exact absurd hdiv (haccepts hstrict)

lemma computes_mergeAll_of_accepts {xs : List Subject} (hxs : ∀ x ∈ xs, x.Stands s F)
    (haccepts : s.Accepts (xs.map Subject.declaration)) :
    Computes (remembering s F) (mergeAll s (groups xs)) (.ok ()) := by
  have hall : ((groups xs).map id).forM (fun _ => (.ok () : Except ConversionError Unit)) =
      .ok () :=
    forM_eq_ok.mpr fun _ _ => rfl
  rw [← hall]
  exact .forM fun g hg => computes_merge_of_accepts hg hxs haccepts

/-! ## The draft of a declaration -/

lemma performs_particleOf {g : Siblings (Trail × Declaration)}
    (hpath : F.at? g.first.1 = some g.first.2) (haccepts : s.Accepts g.first.2.children)
    (hbody : ∀ name, Performs s F uri ((s.subject g.first).body name)
      (s.draftBody uri.isSome g.first.2 name)) :
    Performs s F uri (particleOf (g.map s.subject))
      (s.draftParticle uri.isSome ((g.map Prod.snd).map (s.drafted uri.isSome))) := by
  have hrange : (g.map Prod.snd).range Declaration.range = rangeOf (g.map s.subject) := by
    rw [rangeOf_subject, Siblings.map_range]
    rfl
  rw [Settings.draftParticle_eq, hrange]
  unfold particleOf
  simp only [Siblings.map_first, Siblings.map_name, subject_declaration, subject_path]
  change Performs s F uri (if (!g.first.2.children.isEmpty) = true then _ else _)
    (if g.first.2.children.isEmpty = true then _ else _)
  cases g.first.2.children.isEmpty with
  | true => exact .skip (computes_leafContent _ _) (.pure _)
  | false =>
    refine .bind (performs_typeFor (computes_digest_of_accepts hpath haccepts) hbody) fun name => ?_
    refine .get_uri fun c hu => ?_
    rw [Context.qualify, hu]
    exact .pure _

lemma performs_leafBody (path : Trail) (f : Facts) (name : String) :
    Performs s F uri (bodyOf s path f [] name) (do
      Xml.legal name
      return leafBodyOf f) := by
  have hmerge : Computes (remembering s F) (mergeAll s (groups [])) (.ok ()) := .pure ()
  rw [bodyOf_eq]
  exact .skip hmerge (performs_underName (computes_leafBody path f name))

/-- Wherever a declaration stands that may be merged in itself, its body is compiled as it is
drafted. -/
theorem performs_body : ∀ (d : Declaration) (path : Trail), F.at? path = some d →
    s.Accepts d.children → ∀ name,
    Performs s F uri ((Subject.of s path d).body name) (s.draftBody uri.isSome d name) := by
  intro d
  induction d using Declaration.induction with
  | h f children ih =>
    intro path hpath haccepts name
    change Performs s F uri (bodyOf s path f (Subject.ofAll s path 0 children) name) _
    rw [Settings.draftBody_eq]
    cases children with
    | nil => exact performs_leafBody path f name
    | cons e es =>
      have hmerge := computes_mergeAll_of_accepts (fun x hx => Subject.stands_ofAll hpath hx)
        (by rwa [Subject.declaration_ofAll])
      have hgroups := Profile.placedGroups_snd path (.mk f (e :: es))
      have hne : ¬(Declaration.mk f (e :: es)).groups.isEmpty = true := by
        simp [Declaration.groups_eq_nil, Declaration.children]
      rw [if_neg hne, ← hgroups, List.mapM_map]
      rw [bodyOf_eq]
      refine .skip hmerge ?_
      rw [isEmpty_ofAll, groups_ofAll, List.mapM_map]
      refine .bind (performs_requireLegal name) fun _ => .bind (.mapM fun g hg => ?_) fun ps => ?_
      · have hmem : g.first ∈ placed path 0 (e :: es) := Siblings.first_mem hg
        have hchild := Profile.mem_of_mem_placed hmem
        have hplace := Forest.at_of_mem_placed hpath hmem
        have hgo := haccepts.child hchild
        exact performs_particleOf hplace hgo (ih _ hchild _ hplace hgo)
      · exact .skip (computes_readAttributes path f) (.pure _)

lemma performs_rootOf {roots : List Declaration} (haccepts : s.Accepts roots)
    {g : Siblings (Trail × Declaration)} (hg : g ∈ placedGroups [] roots) :
    Performs s (.ofRoots roots) uri (rootOf s (g.map s.subject))
      (s.draftRoot uri.isSome (g.map Prod.snd)) := by
  have hmem : g.first ∈ placed [] 0 roots := Siblings.first_mem hg
  have hplace := Forest.at_ofRoots_of_mem_placed hmem
  have hgo := haccepts.child (Profile.mem_of_mem_placed hmem)
  have hgroup : g.map s.subject ∈ groups (Subject.ofAll s [] 0 roots) :=
    groups_ofAll s [] roots ▸ List.mem_map_of_mem hg
  have hmerge := computes_merge_of_accepts hgroup (fun x hx => Subject.stands_roots hx)
    (by rwa [Subject.declaration_ofAll])
  have htype : Performs s (.ofRoots roots) uri (typeFor (g.map s.subject) (typeNameBase g.name))
      (draftType (s.fingerprint g.first.2) (typeNameBase g.name)
        (s.draftBody uri.isSome g.first.2)) :=
    performs_typeFor (computes_digest_of_accepts hplace hgo) (performs_body _ _ hplace hgo)
  unfold rootOf Settings.draftRoot
  refine .skip hmerge (.bind htype fun name => ?_)
  refine .skip (computes_tell _) (.get_uri fun c hu => ?_)
  rw [Context.qualify, hu]
  exact .pure _

end

/-- Where declarations may be merged, compiling them is drafting them. -/
theorem compile_eq_draft {s : Settings} {p : ElementProfile}
    (haccepts : s.Accepts p.roots) :
    compile s p = (s.draft p).mapError ConversionError.tree := by
  have hroots : Performs s (.ofRoots p.roots) p.uri
      ((groups (Subject.ofAll s [] 0 p.roots)).mapM (rootOf s))
      ((Siblings.byName Declaration.name p.roots).mapM (s.draftRoot p.uri.isSome)) := by
    rw [groups_ofAll, ← Profile.placedGroups_map [] p.roots, List.mapM_map, List.mapM_map]
    exact .mapM fun g hg => performs_rootOf haccepts hg
  have hstart := hroots (.start p.uri) (known_start s _ p.uri) rfl
  have hdraft : s.draft p = (((Siblings.byName Declaration.name p.roots).mapM
      (s.draftRoot p.uri.isSome)).run (Context.start p.uri).registry >>= fun done =>
        Schema.make p.uri done.1 done.2.types) := rfl
  rw [hdraft]
  cases hdone : ((Siblings.byName Declaration.name p.roots).mapM (s.draftRoot p.uri.isSome)).run
      (Context.start p.uri).registry with
  | error fault =>
    rw [hdone] at hstart
    exact run_bind_error hstart _
  | ok done =>
    rw [hdone] at hstart
    obtain ⟨c, hrun, -, huri, hregistry⟩ := hstart
    change ((compileRoots s p.roots).run (.start p.uri)).1 =
      (Schema.make p.uri done.1 done.2.types).mapError _
    unfold compileRoots
    rw [run_bind, hrun]
    dsimp only
    rw [run_get_bind, huri, hregistry]
    cases Schema.make p.uri done.1 done.2.types with
    | ok schema => rfl
    | error fault => rfl

/-- There is a schema where declarations may be merged and their draft can be written. -/
theorem compile_eq_ok_iff {s : Settings} {p : ElementProfile}
    (hs : s.NoCollision (.ofRoots p.roots)) {schema : Schema} : compile s p = .ok schema ↔
      s.Accepts p.roots ∧ s.draft p = .ok schema := by
  have hdraft (haccepts : s.Accepts p.roots) :
      compile s p = .ok schema ↔ s.draft p = .ok schema := by
    rw [compile_eq_draft haccepts]
    cases s.draft p <;> simp [Except.mapError]
  constructor
  · intro h
    have hends := ends_compileRoots hs.grounded (valid_start s (.ofRoots p.roots) p.uri)
    have haccepts : s.Accepts p.roots := fun hstrict =>
      not_diverges_of_rootFits hstrict (hends.ok schema h).roots
    exact ⟨haccepts, (hdraft haccepts).mp h⟩
  · rintro ⟨haccepts, h⟩
    exact (hdraft haccepts).mpr h

end SchemaLoom.Xsd
