import SchemaLoom.Proofs.Xsd.Building

/-! Compiling root declarations: each root of the schema refers to a type for the first declaration
of its name. In strict mode there is a schema only where no declarations diverge. -/
namespace SchemaLoom.Xsd
open Profile (Declaration Siblings Forest ConversionError)

/-- A root of a schema refers to a type for the first declaration of a group. -/
structure RootFits (s : Settings) (qualified : Bool) (types : List TypeDefinition)
    (g : Siblings Declaration) (root : String × String) : Prop where
  name : root.1 = g.name
  type : ∃ t ∈ types, root.2 = qualify qualified t.name ∧ s.judge g.first = .ok t.digest
  merged : s.mergeJudged (g.map s.withJudgement) = .ok ()

section
variable {s : Settings} {roots : List Declaration} {c : Context}

/-- Root declarations that are merged and judged without failure do not diverge in strict mode. -/
lemma not_diverges_of_rootFits {qualified : Bool} {types : List TypeDefinition}
    {declared : List (String × String)} (hs : s.mode = .strict)
    (h : List.Forall₂ (RootFits s qualified types)
    (Siblings.byName Declaration.name roots) declared) :
    ¬s.Diverges roots := by
  intro hdiv
  obtain ⟨g, hg, hcase⟩ := Settings.diverges_iff.mp hdiv
  obtain ⟨root, -, hroot⟩ := exists_of_mem_left h hg
  obtain ⟨t, -, -, hjudge⟩ := hroot.type
  have hfirst := ((s.judgedRight _).ok _ hjudge).2 hs
  exact Settings.not_diverges_of_merged (fun m _ => s.judgedRight m) hs hroot.merged hfirst hcase

lemma map_mem_byName {g : Siblings Subject} (hg : g ∈ groups (Subject.ofAll s [] 0 roots)) :
    g.map Subject.declaration ∈ Siblings.byName Declaration.name roots := by
  have hmap := List.mem_map_of_mem (f := Siblings.map Subject.declaration) hg
  rwa [groups_map, Subject.declaration_ofAll] at hmap

lemma ends_rootOf (hs : s.Grounded (.ofRoots roots)) {g : Siblings Subject}
    (hg : g ∈ groups (Subject.ofAll s [] 0 roots)) (hc : Valid s (.ofRoots roots) c) :
    Ends (making s (.ofRoots roots) (fun _ => True) fun _ => False) (rootOf s g)
      (fun root c' => RootFits s c'.uri.isSome c'.registry.types (g.map Subject.declaration) root)
      (Fails s roots (Spelled (.ofRoots roots))) c := by
  have hgroup := map_mem_byName hg
  have hstands := Subject.stands_of_mem_group hg
  have hfirst := hstands _ g.first_mem_members
  have hbody : g.first.Bodied s (.ofRoots roots) := by
    rw [hfirst.eq_of]
    exact bodied hs _ _ hfirst.at_path
  have hmerge := computes_merge fun x hx => (hstands x hx).digest
  unfold rootOf
  refine .bind ((hmerge.making hc).mono (fun _ _ _ _ h => h) fun e he => ?_)
    fun _ c₁ hc₁ _ hmerged => ?_
  · rw [judgedGroup_eq] at he
    exact .inl (Settings.refused_of_mergeJudged hgroup he)
  rw [judgedGroup_eq] at hmerged
  refine .bind (((ends_typeFor hs hfirst hbody (isBare_typeNameBase g.name) hc₁).widen
    (fun _ _ => trivial) fun _ h => h.elim).mono (fun _ _ _ _ h => h) fun e he => ?_)
    fun name c₂ hc₂ _ hname => ?_
  · obtain he | ⟨hspell, he⟩ := he
    · exact .inl (he.inside (Siblings.first_mem hgroup))
    · refine .inr ⟨fun hall => hspell ⟨hall, isLegalText_typeNameBase ?_⟩, he⟩
      have hname : g.first.declaration.name = g.name := Siblings.name_first hg
      exact hname ▸ hall _ hfirst.has
  · obtain ⟨t, ht, rfl, hjudge⟩ := hname
    refine .bind (ends_tell _ hc₂) fun _ c₃ hc₃ hm _ => .get_bind (.pure hc₃ ⟨rfl, ?_, hmerged⟩)
    exact ⟨t, hm.types_subset ht, rfl, hjudge⟩

lemma legal_eq_ok {x : String} {u : Unit} (h : Xml.legal x = .ok u) : Xml.isLegalText x := by
  unfold Xml.legal at h
  split at h
  · assumption
  · cases h

/-- A schema was put together: its namespace and the names of its roots can stand in a document. -/
structure Made (uri : Option String) (declared : List (String × String))
    (types : List TypeDefinition) (schema : Schema) : Prop where
  eq : schema = ⟨uri.filter (· != ""), declared, types⟩
  uri : ∀ given, uri.filter (· != "") = some given → Xml.isLegalText given ∧ Uri.isReference given
  roots : ∀ root ∈ declared, Xml.isLegalText root.1 ∧ Xml.isLegalText root.2

lemma made_of_make {uri : Option String} {declared : List (String × String)}
    {types : List TypeDefinition} {schema : Schema}
    (h : Schema.make uri declared types = .ok schema) :
    Made uri declared types schema := by
  have hroots {check : String × String → Except Xml.BuildFault Unit}
      (hcheck : ∀ root, check root = (do Xml.legal root.1; Xml.legal root.2))
        (hall : declared.forM check = .ok ()) :
      ∀ root ∈ declared, Xml.isLegalText root.1 ∧ Xml.isLegalText root.2 := by
    intro root hroot
    have hroot := forM_eq_ok.mp hall root hroot
    rw [hcheck] at hroot
    obtain ⟨_, hname, htype⟩ := bind_eq_ok hroot
    exact ⟨legal_eq_ok hname, legal_eq_ok htype⟩
  unfold Schema.make at h
  dsimp only at h
  cases hu : uri.filter (· != "") with
  | none =>
    rw [hu] at h
    obtain ⟨_, hall, h⟩ := bind_eq_ok h
    cases h
    exact ⟨by rw [hu], by simp [hu], hroots (fun _ => rfl) hall⟩
  | some given =>
    rw [hu] at h
    obtain ⟨_, hlegal, h⟩ := bind_eq_ok h
    obtain ⟨_, hreference, h⟩ := bind_eq_ok h
    obtain ⟨_, hall, h⟩ := bind_eq_ok h
    cases h
    refine ⟨by rw [hu], fun other hother => ?_, hroots (fun _ => rfl) hall⟩
    rw [hu] at hother
    cases hother
    unfold Xml.checkUri at hreference
    split at hreference
    · exact ⟨legal_eq_ok hlegal, by assumption⟩
    · cases hreference

lemma make_of_made {uri : Option String} {declared : List (String × String)}
    {types : List TypeDefinition} {schema : Schema} (h : Made uri declared types schema) :
    Schema.make uri declared types = .ok schema := by
  obtain ⟨rfl, huri, hroots⟩ := h
  have hlegal {x : String} (hx : Xml.isLegalText x) : Xml.legal x = .ok () := if_pos hx
  have hall : (declared.forM fun root => do Xml.legal root.1; Xml.legal root.2) = .ok () := by
    refine forM_eq_ok.mpr fun root hroot => ?_
    rw [hlegal (hroots root hroot).1, hlegal (hroots root hroot).2]
    rfl
  unfold Schema.make
  dsimp only
  cases hu : uri.filter (· != "") with
  | none => exact congrArg (· >>= fun _ => Except.ok (Schema.mk none declared types)) hall
  | some given =>
    obtain ⟨hgiven, hreference⟩ := huri given hu
    have hcheck : Xml.checkUri given = .ok () := if_pos hreference
    dsimp only
    rw [hlegal hgiven, hcheck]
    exact congrArg (· >>= fun _ => Except.ok (Schema.mk (some given) declared types)) hall

/-- The roots of a schema and its types are those of the compilation. -/
lemma make_eq_ok {uri : Option String} {declared : List (String × String)}
    {types : List TypeDefinition} {schema : Schema}
    (h : Schema.make uri declared types = .ok schema) :
    schema = ⟨uri.filter (· != ""), declared, types⟩ := (made_of_make h).eq

/-- What is known of a schema when it is there. -/
structure SchemaFits (s : Settings) (roots : List Declaration) (c : Context) (schema : Schema) :
    Prop where
  uri : schema.uri = c.uri.filter (· != "")
  types : schema.types = c.registry.types
  roots : List.Forall₂ (RootFits s c.uri.isSome schema.types)
    (Siblings.byName Declaration.name roots)
    schema.roots

/-- Compiling root declarations ends in a schema for them, or in a failure over them, or with a
namespace or name that the schema cannot hold. -/
theorem ends_compileRoots (hs : s.Grounded (.ofRoots roots)) (hc : Valid s (.ofRoots roots) c) :
    Ends (making s (.ofRoots roots) (fun _ => True) fun _ => False) (compileRoots s roots)
      (fun schema c' => SchemaFits s roots c' schema)
      (fun e => Fails s roots (Spelled (.ofRoots roots)) e ∨
        (s.mode = .strict → ¬s.Diverges roots) ∧ ∃ fault, e = .tree fault) c := by
  unfold compileRoots
  refine .bind ((Ends.mapM (R := fun g root c' => RootFits s c'.uri.isSome c'.registry.types
    (g.map Subject.declaration) root) hc (fun g hg c' hc' => ends_rootOf hs hg hc') ?_).mono
    (fun declared c' _ _ h => h) fun e he => .inl he) fun declared c₁ hc₁ _ hdeclared => ?_
  · intro g root c₁ c₂ _ _ hm h
    obtain ⟨t, ht, href, hjudge⟩ := h.type
    rw [hm.uri]
    exact ⟨h.name, ⟨t, hm.types_subset ht, href, hjudge⟩, h.merged⟩
  have hmap := groups_map (Subject.ofAll s [] 0 roots)
  rw [Subject.declaration_ofAll] at hmap
  rw [← List.forall₂_map_left_iff, hmap] at hdeclared
  refine .get_bind ?_
  cases hmake : Schema.make c₁.uri declared c₁.registry.types with
  | ok schema =>
    obtain rfl := make_eq_ok hmake
    exact .pure hc₁ ⟨rfl, rfl, hdeclared⟩
  | error fault =>
    exact .throw hc₁ (.inr ⟨fun hstrict => not_diverges_of_rootFits hstrict hdeclared, fault, rfl⟩)

end

/-- A namespace that is not empty stays what it is. -/
lemma filter_uri {uri : Option String} (h : uri ≠ some "") : uri.filter (· != "") = uri := by
  cases uri with
  | none => rfl
  | some given =>
    have hne : given ≠ "" := fun he => h (by rw [he])
    simp [Option.filter, hne]

/-- What is known of a schema that was compiled from a profile. -/
structure Compiled (s : Settings) (p : Profile.ElementProfile) (schema : Schema) : Prop where
  uri : schema.uri = p.uri
  built : Built schema.uri.isSome s (.ofRoots p.roots) schema.types
  roots : List.Forall₂ (RootFits s schema.uri.isSome schema.types)
    (Siblings.byName Declaration.name p.roots) schema.roots

theorem Compiled.of_grounded {s : Settings} {p : Profile.ElementProfile} {schema : Schema}
    (hs : s.Grounded (.ofRoots p.roots)) (huri : p.uri ≠ some "") (h : compile s p = .ok schema) :
    Compiled s p schema := by
  have hends := ends_compileRoots hs (valid_start s (.ofRoots p.roots) p.uri)
  obtain ⟨hfits, htypes, hroots⟩ := hends.ok schema h
  have hbuilt := hends.holds.built
  rw [← htypes] at hbuilt
  have hsame : schema.uri = p.uri := by rw [hfits, hends.moves.uri, Context.start, filter_uri huri]
  rw [hends.moves.uri, Context.start] at hbuilt hroots
  rw [← hsame] at hbuilt hroots
  exact ⟨hsame, hbuilt, hroots⟩

theorem compiled_of_compile {s : Settings} {p : Profile.ElementProfile} {schema : Schema}
    (hs : s.NoCollision (.ofRoots p.roots)) (huri : p.uri ≠ some "")
    (h : compile s p = .ok schema) :
    Compiled s p schema := .of_grounded hs.grounded huri h
end SchemaLoom.Xsd
