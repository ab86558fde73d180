import SchemaLoom.Proofs.Xsd.Memo
import SchemaLoom.Proofs.Xsd.Registry

/-! Compiling declarations keeps the registry in order: a type is described by types before it, new
types come behind old ones, and a type is put in under a digest and a name that are still free. -/
namespace SchemaLoom.Xsd
open Profile (Declaration Facts Siblings Forest Trail Event ConversionError)

/-- All declarations of a forest have names that a document can hold. -/
def Spelled (F : Forest) : Prop := ∀ d, F.Has d → Xml.isLegalText d.name

/-- A failure over declarations: strict mode refuses them, or a name cannot be written. -/
def Fails (s : Settings) (ds : List Declaration) (spelled : Prop) (e : ConversionError) : Prop :=
  s.Refused ds e ∨ ¬spelled ∧ ∃ fault, e = .tree fault

/-- A context in order. -/
structure Valid (s : Settings) (F : Forest) (c : Context) : Prop where
  known : Known s F c
  built : Built c.uri.isSome s F c.registry.types
  used : ∀ t ∈ c.registry.types, t.name ∈ c.registry.usedNames

/-- New types come behind old ones. They are made for declarations of a kind, under names that were
free or set aside. -/
structure Grows (s : Settings) (kind : Declaration → Prop) (aside : String → Prop)
    (c c' : Context) :
    Prop where
  uri : c'.uri = c.uri
  types : ∃ new, c'.registry.types = c.registry.types ++ new ∧ ∀ t ∈ new,
    (t.name ∉ c.registry.usedNames ∨ aside t.name) ∧ ∃ d, kind d ∧ t.digest = s.fingerprint d
  usedNames : ∃ new, c'.registry.usedNames = c.registry.usedNames ++ new

section
variable {s : Settings} {F : Forest} {kind kind' : Declaration → Prop}
  {aside aside' : String → Prop} {a b c : Context}

theorem valid_start (s : Settings) (F : Forest) (uri : Option String) : Valid s F (.start uri) :=
  ⟨known_start s F uri, .nil, by simp [Context.start, Registry.empty]⟩

lemma Grows.of_same (huri : b.uri = a.uri) (htypes : b.registry.types = a.registry.types)
    (hused : ∃ new, b.registry.usedNames = a.registry.usedNames ++ new) : Grows s kind aside a b :=
  ⟨huri, ⟨[], by simp [htypes], by simp⟩, hused⟩

lemma Grows.refl (c : Context) : Grows s kind aside c c := .of_same rfl rfl ⟨[], by simp⟩

lemma Grows.used_subset (h : Grows s kind aside a b) :
    a.registry.usedNames ⊆ b.registry.usedNames := by
  obtain ⟨new, hn⟩ := h.usedNames
  rw [hn]
  exact List.subset_append_left _ _

lemma Grows.types_subset (h : Grows s kind aside a b) : a.registry.types ⊆ b.registry.types := by
  obtain ⟨new, hn, -⟩ := h.types
  rw [hn]
  exact List.subset_append_left _ _

lemma Grows.trans (h : Grows s kind aside a b) (h' : Grows s kind aside b c) :
    Grows s kind aside a c := by
  have hsub := h.used_subset
  obtain ⟨huri, ⟨new, htypes, hnew⟩, ⟨names, hnames⟩⟩ := h
  obtain ⟨huri', ⟨new', htypes', hnew'⟩, ⟨names', hnames'⟩⟩ := h'
  refine ⟨huri'.trans huri, ⟨new ++ new', by rw [htypes', htypes, List.append_assoc], ?_⟩,
    ⟨names ++ names', by rw [hnames', hnames, List.append_assoc]⟩⟩
  intro t ht
  obtain ht | ht := List.mem_append.mp ht
  · exact hnew t ht
  · obtain ⟨hname, hd⟩ := hnew' t ht
    exact ⟨hname.imp_left fun hb ha => hb (hsub ha), hd⟩

lemma Grows.mono (h : Grows s kind aside a b) (hkind : ∀ d, kind d → kind' d)
    (haside : ∀ n, aside n → n ∉ a.registry.usedNames ∨ aside' n) : Grows s kind' aside' a b := by
  obtain ⟨huri, ⟨new, htypes, hnew⟩, hnames⟩ := h
  refine ⟨huri, ⟨new, htypes, fun t ht => ?_⟩, hnames⟩
  obtain ⟨hname, d, hd, hdigest⟩ := hnew t ht
  exact ⟨hname.elim .inl (haside _), d, hkind d hd, hdigest⟩

/-- Compiling keeps contexts in order and lets them grow. -/
def making (s : Settings) (F : Forest) (kind : Declaration → Prop) (aside : String → Prop) :
    Discipline where
  holds := Valid s F
  moves := Grows s kind aside
  refl := Grows.refl
  trans := Grows.trans

variable {α β : Type} {Q : α → Context → Prop} {E : ConversionError → Prop} {m : Compiling α}

lemma Ends.widen (h : Ends (making s F kind aside) m Q E c) (hkind : ∀ d, kind d → kind' d)
    (haside : ∀ n, aside n → n ∉ c.registry.usedNames ∨ aside' n) :
    Ends (making s F kind' aside') m Q E c :=
  h.change (fun _ hc _ => hc) fun _ _ hm => hm.mono hkind haside

lemma Ends.of_remembering (h : Ends (remembering s F) m Q E c) (hc : Valid s F c) :
    Ends (making s F kind aside) m Q E c := by
  refine h.change (fun c' hk hm => ?_) fun c' _ hm => ?_
  · obtain ⟨huri, hreg⟩ := hm
    exact ⟨hk, by rw [huri, hreg]; exact hc.built, by rw [hreg]; exact hc.used⟩
  · exact .of_same hm.1 (by rw [hm.2]) ⟨[], by simp [hm.2]⟩

/-- Where the outcome is computed, a step may fail or succeed as the outcome says. -/
lemma Computes.making {r : Except ConversionError α} (h : Computes (remembering s F) m r)
    (hc : Valid s F c) : Ends (making s F kind aside) m (fun a _ => r = .ok a) (r = .error ·) c :=
  .of_remembering (h c hc.known) hc

/-! ## One step of a compilation after the other -/

/-- What a step comes to that succeeds under names only that a document can hold. -/
def underName {α : Type} (name : String) (a : α) : Except ConversionError α :=
  if Xml.isLegalText name then .ok a else .error (.tree .illegalText)

lemma underName_eq_ok {a a' : α} {name : String} (h : underName name a = .ok a') :
    Xml.isLegalText name ∧ a' = a := by
  unfold underName at h
  split at h
  · rename_i hname
    cases h
    exact ⟨hname, rfl⟩
  · cases h

lemma underName_eq_error {a : α} {name : String} {e : ConversionError}
    (h : underName name a = .error e) :
    ¬Xml.isLegalText name ∧ ∃ fault, e = .tree fault := by
  unfold underName at h
  split at h
  · cases h
  · rename_i hname
    cases h
    exact ⟨hname, _, rfl⟩

lemma computes_requireLegal (name : String) :
    Computes (remembering s F) (requireLegal name) (underName name ()) := by
  unfold requireLegal Xml.legal underName
  by_cases hname : Xml.isLegalText name = true
  · rw [if_pos hname, if_pos hname]
    exact .pure ()
  · rw [if_neg hname, if_neg hname]
    exact .throw _

lemma ends_requireLegal {name : String} (hc : Valid s F c) :
    Ends (making s F kind aside) (requireLegal name) (fun _ _ => True)
      (fun e => ¬Xml.isLegalText name ∧ ∃ fault, e = .tree fault) c :=
  ((computes_requireLegal name).making hc).mono (fun _ _ _ _ _ => trivial) fun _ =>
    underName_eq_error

lemma computes_leafContent (path : Trail) (f : Facts) :
    Computes (remembering s F) (leafContent path f) (.ok (leafContentOf f)) := by
  unfold leafContent leafContentOf
  split
  · exact .skip (computes_readAttributes path f) (.pure _)
  · refine .skip (computes_tell _) ?_
    split
    · exact .pure _
    · exact .pure _

/-- The type of an element without elements in it, under a name. -/
def leafBody (path : Trail) (f : Facts) (name : String) : Compiling TypeBody := do
  if !f.attributes.isEmpty then
    requireLegal name
    readAttributes path f
    return .extended f.primitive f.attributes
  else
    tell (.facetsRead path)
    requireLegal name
    if !f.facets.isEmpty && f.primitive == .string then return .restricted f.facets
    else return .extended f.primitive []

theorem bodyOf_eq (s : Settings) (path : Trail) (f : Facts) (children : List Subject)
    (name : String) :
    bodyOf s path f children name = (do
      mergeAll s (groups children)
      if !children.isEmpty then
        requireLegal name
        let particles ← (groups children).mapM particleOf
        readAttributes path f
        return .sequence particles f.attributes
      else leafBody path f name) := rfl

theorem computes_leafBody (path : Trail) (f : Facts) (name : String) :
    Computes (remembering s F) (leafBody path f name) (underName name (leafBodyOf f)) := by
  have hout (body : TypeBody) : underName name body = underName name () >>= fun _ => .ok body := by
    unfold underName
    split
    · rfl
    · rfl
  rw [hout]
  unfold leafBody leafBodyOf
  split
  · exact .bind (computes_requireLegal name) fun _ _ =>
      .skip (computes_readAttributes path f) (.pure _)
  · refine .skip (computes_tell _) (.bind (computes_requireLegal name) fun _ _ => ?_)
    split
    · exact .pure _
    · exact .pure _

namespace Subject

lemma Stands.digest {x : Subject} (h : x.Stands s F) :
    Computes (remembering s F) x.digest (s.judge x.declaration) := by
  rw [h.eq_of, of_declaration]
  exact computes_digest _ _ h.at_path

/-- What the body of a subject is, if it is compiled. -/
def Bodied (s : Settings) (F : Forest) (x : Subject) : Prop :=
  ∀ name c, Valid s F c → Ends (making s F x.declaration.Leads fun _ => False) (x.body name)
    (fun body c' => BodyFits c'.uri.isSome s c'.registry.types x.declaration body)
    (Fails s x.declaration.children (Spelled F ∧ Xml.isLegalText name)) c

end Subject

/-- A declaration, or one that stands first in its group at some depth inside of it. -/
def LeadsFrom (d e : Declaration) : Prop := e = d ∨ d.Leads e

/-- Putting in a type that is described by those before it, under a digest and a name that are
free. -/
lemma Valid.register {t : TypeDefinition} {d : Declaration} (hc : Valid s F c) (hd : F.Has d)
    (digest : t.digest = s.fingerprint d)
    (body : BodyFits c.uri.isSome s c.registry.types d t.body) (bare : IsBare t.name)
    (hname : t.name ∈ c.registry.usedNames) (newName : t.name ∉ c.registry.types.map (·.name))
    (newDigest : c.registry.find? t.digest = none) :
    Valid s F { c with registry := c.registry.register t } := by
  rw [Registry.register_of_new newDigest]
  have hdigest : t.digest ∉ c.registry.types.map TypeDefinition.digest := by
    intro hmem
    obtain ⟨u, hu, he⟩ := List.mem_map.mp hmem
    exact Registry.find_eq_none.mp newDigest u hu he
  refine ⟨hc.known, hc.built.snoc hd digest body bare newName hdigest, ?_⟩
  intro u hu
  obtain hu | hu := List.mem_append.mp hu
  · exact hc.used u hu
  · exact List.mem_singleton.mp hu ▸ hname

/-- A context after a name near a preferred one was taken in it. -/
def Context.allocate (c : Context) (preferred : String) : Context :=
  { c with registry := (c.registry.allocate preferred).2 }

lemma usedNames_allocate (c : Context) (preferred : String) :
    (c.allocate preferred).registry.usedNames =
    c.registry.usedNames ++ [Registry.freeName c.registry.usedNames preferred] := rfl

lemma Valid.allocate (hc : Valid s F c) (preferred : String) :
    Valid s F (c.allocate preferred) := by
  refine ⟨hc.known, hc.built, fun t ht => ?_⟩
  rw [usedNames_allocate]
  exact List.mem_append_left _ (hc.used t ht)

/-- Compiling the body of a declaration leaves its fingerprint and the name set aside for it
unused. -/
lemma Valid.stays_free (hs : s.Grounded F) (hc : Valid s F c) {d : Declaration} (hd : F.Has d)
    {preferred : String} (hnone : c.registry.find? (s.fingerprint d) = none)
    (hm : Grows s d.Leads (fun _ => False) (c.allocate preferred) b) :
    (c.registry.allocate preferred).1 ∈ b.registry.usedNames ∧
      (c.registry.allocate preferred).1 ∉ b.registry.types.map TypeDefinition.name ∧
      b.registry.find? (s.fingerprint d) = none := by
  obtain ⟨new, htypes, hnew⟩ := hm.types
  have htaken : (c.registry.allocate preferred).1 ∈ (c.allocate preferred).registry.usedNames := by
    rw [usedNames_allocate]
    exact List.mem_append_right _ (List.mem_singleton.mpr rfl)
  refine ⟨hm.used_subset htaken, ?_, ?_⟩
  · intro hmem
    obtain ⟨t, ht, hname⟩ := List.mem_map.mp hmem
    rw [htypes] at ht
    obtain ht | ht := List.mem_append.mp ht
    · have hused := hc.used t ht
      rw [hname] at hused
      exact Registry.freeName_not_mem _ _ hused
    · obtain h | h := (hnew t ht).1
      · rw [hname] at h
        exact h htaken
      · exact h
  · rw [Registry.find_eq_none, htypes]
    intro t ht
    obtain ht | ht := List.mem_append.mp ht
    · exact Registry.find_eq_none.mp hnone t ht
    · obtain ⟨-, e, he, hdigest⟩ := hnew t ht
      rw [hdigest]
      exact hs d e hd he

/-- The type of a group is there afterwards, whether it was there before or is made now. -/
theorem ends_typeFor (hs : s.Grounded F) {g : Siblings Subject} (hg : g.first.Stands s F)
    (hbody : g.first.Bodied s F) {preferred : String} (bare : IsBare preferred)
    (hc : Valid s F c) :
    Ends (making s F (LeadsFrom g.first.declaration) fun _ => False) (typeFor g preferred)
      (fun name c' => ∃ t ∈ c'.registry.types, t.name = name ∧
        s.judge g.first.declaration = .ok t.digest)
      (Fails s g.first.declaration.children (Spelled F ∧ Xml.isLegalText preferred)) c := by
  unfold typeFor
  refine .bind ((hg.digest.making hc).mono (fun _ _ _ _ h => h) fun e he => ?_)
    fun digest c₁ hc₁ _ hdigest => ?_
  · exact .inl ((s.judgedRight _).error e he)
  have hfp := ((s.judgedRight _).ok digest hdigest).1
  refine .get_bind ?_
  cases hf : c₁.registry.find? digest with
  | some t =>
    obtain ⟨ht, htd⟩ := Registry.find_eq_some hf
    refine .bind (((computes_tell _).making hc₁).mono (fun _ _ _ _ h => h) ?_)
      fun _ c₂ hc₂ hm _ => ?_
    · simp
    · exact .pure hc₂ ⟨t, hm.types_subset ht, rfl, htd ▸ hdigest⟩
  | none =>
    set name := (c₁.registry.allocate preferred).1
    -- The name is free here and set aside for what follows.
    suffices h : Ends (making s F (LeadsFrom g.first.declaration) (· = name)) _ _ _ c₁ from
      h.widen (fun _ h => h) fun n hn => .inl (hn ▸ Registry.freeName_not_mem _ _)
    refine .get_bind ?_
    refine .bind (Q := fun _ c' => c' = c₁.allocate preferred)
      (.modify (hc₁.allocate preferred) ?_ rfl)
      fun _ c₂ hc₂ _ h₂ => ?_
    · exact .of_same rfl rfl ⟨_, usedNames_allocate c₁ preferred⟩
    subst h₂
    have hbody' : Ends (making s F g.first.declaration.Leads fun _ => False) (g.first.body name)
        (fun body c₃ => Grows s g.first.declaration.Leads (fun _ => False)
          (c₁.allocate preferred) c₃ ∧
          BodyFits c₃.uri.isSome s c₃.registry.types g.first.declaration body)
        (Fails s g.first.declaration.children (Spelled F ∧ Xml.isLegalText preferred))
        (c₁.allocate preferred) := by
      refine (hbody name _ hc₂).mono (fun body c₃ _ hm hfits => ⟨hm, hfits⟩) fun e he => ?_
      exact he.imp_right fun h => ⟨fun hp => h.1 ⟨hp.1, isLegalText_freeName hp.2 _⟩, h.2⟩
    refine .bind (hbody'.widen (fun _ h => .inr h) fun _ h => h.elim) fun body c₃ hc₃ _ hb => ?_
    obtain ⟨hm, hfits⟩ := hb
    obtain ⟨hmem, hnew, hnone⟩ := hc₁.stays_free hs hg.has (hfp ▸ hf) hm
    rw [← hfp] at hnone
    have hreg := Registry.register_of_new (t := ⟨name, digest, body⟩) hnone
    refine .bind (Q := fun _ c' => ⟨name, digest, body⟩ ∈ c'.registry.types) (.modify ?_ ?_ ?_)
      fun _ c₄ hc₄ _ ht => ?_
    · exact hc₃.register hg.has hfp hfits (isBare_freeName bare _) hmem hnew hnone
    · refine ⟨rfl, ⟨[⟨name, digest, body⟩], by rw [hreg], ?_⟩, ⟨[], by rw [hreg, List.append_nil]⟩⟩
      intro t ht
      rw [List.mem_singleton.mp ht]
      exact ⟨.inr rfl, _, .inl rfl, hfp⟩
    · rw [hreg]
      exact List.mem_append_right _ (List.mem_singleton.mpr rfl)
    · exact .pure hc₄ ⟨_, ht, rfl, hdigest⟩

/-- A group is described by its particle. -/
theorem ends_particleOf (hs : s.Grounded F) {g : Siblings Subject} (hg : g.first.Stands s F)
    (hbody : g.first.Bodied s F) (hc : Valid s F c) :
    Ends (making s F (LeadsFrom g.first.declaration) fun _ => False) (particleOf g)
      (fun p c' => ParticleFits c'.uri.isSome s c'.registry.types (g.map Subject.declaration) p)
      (Fails s g.first.declaration.children (Spelled F ∧ Xml.isLegalText g.name)) c := by
  unfold particleOf
  dsimp only
  have hr : (g.map Subject.declaration).range Declaration.range = rangeOf g := g.map_range _ _
  split
  · rename_i hne
    refine .bind ((ends_typeFor hs hg hbody (isBare_typeNameBase g.name) hc).mono
      (fun _ _ _ _ h => h) fun e he => ?_) fun name c₁ hc₁ _ hname => ?_
    · exact he.imp_right fun h => ⟨fun hp => h.1 ⟨hp.1, isLegalText_typeNameBase hp.2⟩, h.2⟩
    · obtain ⟨t, ht, rfl, hjudge⟩ := hname
      refine .get_bind (.pure hc₁ ⟨rfl, hr.symm, ?_⟩)
      exact .named (by simpa using hne) ht ((s.judgedRight _).ok _ hjudge).1
  · rename_i hnil
    refine .bind (((computes_leafContent _ _).making hc).mono (fun _ _ _ _ h => h) fun e he => ?_)
      fun content c₁ hc₁ _ hcontent => ?_
    · cases he
    · cases hcontent
      exact .pure hc₁ ⟨rfl, hr.symm, .leaf (by simpa using hnil)⟩

lemma Settings.Refused.inside {ds : List Declaration} {d : Declaration} {e : ConversionError}
    (hd : d ∈ ds) (h : s.Refused d.children e) : s.Refused ds e :=
  ⟨h.strict, .inside hd h.diverges, h.conflict⟩

lemma ends_mergeAll {xs : List Subject} (hxs : ∀ x ∈ xs, x.Stands s F) (hc : Valid s F c) :
    Ends (making s F kind aside) (mergeAll s (groups xs)) (fun _ _ => True)
      (s.Refused (xs.map Subject.declaration)) c := by
  have hmerge : Computes (remembering s F) (mergeAll s (groups xs)) _ :=
    computes_mergeAll fun g hg x hx => (hxs x (Siblings.mem_of_mem_members hg hx)).digest
  refine (hmerge.making hc).mono (fun _ _ _ _ _ => trivial) fun e he => ?_
  rw [groups_judged] at he
  obtain ⟨k, hk, he⟩ := exists_of_forM_eq_error he
  obtain ⟨g, hg, rfl⟩ := List.mem_map.mp hk
  exact Settings.refused_of_mergeJudged hg he

lemma ends_readAttributes (path : Trail) (f : Facts) (hc : Valid s F c) :
    Ends (making s F kind aside) (readAttributes path f) (fun _ _ => True) E c :=
  ((computes_readAttributes path f).making hc).mono (fun _ _ _ _ _ => trivial) fun _ h => by cases h

lemma ends_tell (e : Event) (hc : Valid s F c) :
    Ends (making s F kind aside) (tell e) (fun _ _ => True) E c :=
  ((computes_tell e).making hc).mono (fun _ _ _ _ _ => trivial) fun _ h => by cases h

/-- The groups of the elements in a declaration, as the compiler meets them. -/
lemma first_of_mem_groups {path : Trail} {d : Declaration} (hpath : F.at? path = some d)
    {g : Siblings Subject} (hg : g ∈ groups (Subject.ofAll s path 0 d.children)) :
    g.first.Stands s F ∧ g.map Subject.declaration ∈ d.groups ∧
      g.first.declaration.name = g.name := by
  refine ⟨Subject.stands_ofAll hpath (Siblings.first_mem hg), ?_, Siblings.name_first hg⟩
  have hmap := List.mem_map_of_mem (f := Siblings.map Subject.declaration) hg
  rwa [groups_map, Subject.declaration_ofAll] at hmap

/-- The particles of the elements in a declaration describe its groups. -/
lemma ends_particles (hs : s.Grounded F) {path : Trail} {d : Declaration}
    (hpath : F.at? path = some d)
    (hbody : ∀ e ∈ d.children, ∀ p, F.at? p = some e → (Subject.of s p e).Bodied s F)
    (hc : Valid s F c) :
    Ends (making s F d.Leads fun _ => False)
      ((groups (Subject.ofAll s path 0 d.children)).mapM particleOf)
      (fun ps c' => List.Forall₂ (ParticleFits c'.uri.isSome s c'.registry.types) d.groups ps)
      (Fails s d.children (Spelled F)) c := by
  refine (Ends.mapM (R := fun g p c' => ParticleFits c'.uri.isSome s c'.registry.types
    (g.map Subject.declaration) p) hc (fun g hg c' hc' => ?_) ?_).mono (fun ps c' _ _ h => ?_)
    fun _ he => he
  · obtain ⟨hst, hgroup, hname⟩ := first_of_mem_groups hpath hg
    have hchild : g.first.declaration ∈ d.children := Declaration.first_mem_children hgroup
    have hbodied : g.first.Bodied s F := by
      rw [hst.eq_of]
      exact hbody _ hchild _ hst.at_path
    refine ((ends_particleOf hs hst hbodied hc').widen (fun e he => ?_) fun _ h => h.elim).mono
      (fun _ _ _ _ h => h) fun e he => ?_
    · have hlead : d.Leads g.first.declaration := .here hgroup
      obtain rfl | he := he
      · exact hlead
      · exact hlead.trans he
    · obtain he | ⟨hspell, he⟩ := he
      · exact .inl (he.inside hchild)
      · exact .inr ⟨fun hall => hspell ⟨hall, hname ▸ hall _ hst.has⟩, he⟩
  · intro g p c₁ c₂ _ _ hm h
    rw [hm.uri]
    exact h.mono hm.types_subset
  · have hmap := groups_map (Subject.ofAll s path 0 d.children)
    rw [Subject.declaration_ofAll] at hmap
    rw [Declaration.groups, ← hmap, List.forall₂_map_left_iff]
    exact h

/-- The body of every declaration where it stands describes it, by means of types that are there
when it is done. -/
theorem bodied (hs : s.Grounded F) : ∀ (d : Declaration) (path : Trail), F.at? path = some d →
    (Subject.of s path d).Bodied s F := by
  intro d
  induction d using Declaration.induction with
  | h f children ih =>
    intro path hpath name c hc
    rw [Subject.of_declaration]
    change Ends _ (bodyOf s path f (Subject.ofAll s path 0 children) name) _ _ c
    rw [bodyOf_eq]
    refine .bind ((ends_mergeAll (fun x hx => Subject.stands_ofAll hpath hx) hc).mono
      (fun _ _ _ _ h => h) fun e he => ?_) fun _ c₁ hc₁ _ _ => ?_
    · rw [Subject.declaration_ofAll] at he
      exact .inl he
    split
    · rename_i hne
      refine .bind ((ends_requireLegal hc₁).mono (fun _ _ _ _ h => h) fun e he => ?_)
        fun _ c₂ hc₂ _ _ => ?_
      · exact .inr ⟨fun hp => he.1 hp.2, he.2⟩
      refine .bind ((ends_particles hs hpath ih hc₂).mono (fun _ _ _ _ h => h) fun e he => ?_)
        fun ps c₃ hc₃ _ hps => ?_
      · exact he.imp_right fun h => ⟨fun hp => h.1 hp.1, h.2⟩
      refine .bind (ends_readAttributes path f hc₃) fun _ c₄ hc₄ hm _ => .pure hc₄ ?_
      refine .sequence (by simpa [Declaration.children] using hne) (hps.imp fun g p h => ?_)
      rw [hm.uri]
      exact h.mono hm.types_subset
    · rename_i hnil
      refine ((computes_leafBody path f name).making hc₁).mono (fun body c₂ _ _ hbody => ?_)
        fun e he => ?_
      · obtain ⟨-, rfl⟩ := underName_eq_ok hbody
        exact .leaf (by simpa [Declaration.children] using hnil)
      · obtain ⟨hname, hfault⟩ := underName_eq_error he
        exact .inr ⟨fun hp => hname hp.2, hfault⟩

end
end SchemaLoom.Xsd
