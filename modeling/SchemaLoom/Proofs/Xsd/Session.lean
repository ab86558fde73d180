import SchemaLoom.Proofs.Xsd.Building

/-! Any order of calls: the registry is in order in every context that calls on the places of a
forest can reach, whether they succeed or fail. -/
namespace SchemaLoom.Xsd
open Profile (Declaration Siblings Forest Trail ConversionError)

/-- The built-in and named types that the content of a particle mentions. -/
def Content.references : Content → List String
  | .named reference => [reference]
  | .builtin p => [p.reference]
  | .restricted _ => [Profile.Primitive.string.reference]
  | .extended base attributes => base.reference :: attributes.map (·.primitive.reference)

/-- The types that a body mentions. -/
def TypeBody.references : TypeBody → List String
  | .sequence particles attributes =>
    particles.flatMap (·.content.references) ++ attributes.map (·.primitive.reference)
  | .extended base attributes => base.reference :: attributes.map (·.primitive.reference)
  | .restricted _ => [Profile.Primitive.string.reference]

/-- A place that is taken and what stands there. -/
structure Place (F : Forest) where
  path : Trail
  declaration : Declaration
  at_path : F.at? path = some declaration

/-- What may be asked of a compilation over the places of a forest. Groups are asked for as they
are, of any members and under any name. -/
inductive Call (F : Forest) where
  | merge (g : Siblings (Place F))
  | mergeChildren (x : Place F)
  | fingerprint (x : Place F)
  | build (g : Siblings (Place F)) (preferred : String)
  | body (x : Place F) (name : String)
  | particle (g : Siblings (Place F))
  | allocate (preferred : String)

section
variable {F : Forest} (s : Settings)

def Place.subject (x : Place F) : Subject := .of s x.path x.declaration

/-- What a call does, its result apart. -/
def Call.perform : Call F → Compiling Unit
  | .merge g => Xsd.merge s (g.map (·.subject s))
  | .mergeChildren x => mergeAll s (groups (Subject.ofAll s x.path 0 x.declaration.children))
  | .fingerprint x => do let _ ← (x.subject s).digest
  | .build g preferred => do let _ ← typeFor (g.map (·.subject s)) preferred
  | .body x name => do let _ ← (x.subject s).body name
  | .particle g => do let _ ← particleOf (g.map (·.subject s))
  | .allocate preferred => modify (·.allocate preferred)

/-- The names that a call prefers do not begin like references. -/
def Call.Bare : Call F → Prop
  | .build _ preferred => IsBare preferred
  | .allocate preferred => IsBare preferred
  | _ => True

/-- Contexts that calls can reach, those after a failed call included. -/
inductive Reached (F : Forest) (uri : Option String) : Context → Prop
  | start : Reached F uri (.start uri)
  | call {c : Context} (h : Reached F uri c) (k : Call F) (hk : k.Bare) :
    Reached F uri ((k.perform s).run c).2

end

section
variable {s : Settings} {F : Forest} {uri : Option String} {c : Context}

lemma Place.stands (x : Place F) : (x.subject s).Stands s F :=
  Subject.stands_of x.at_path

lemma Place.bodied (hs : s.NoCollision F) (x : Place F) :
    (x.subject s).Bodied s F := Xsd.bodied hs.grounded _ _ x.at_path

/-- A call keeps the context in order and lets it grow. -/
theorem ends_perform (hs : s.NoCollision F) (k : Call F) (hk : k.Bare)
    (hc : Valid s F c) :
    Ends (making s F (fun _ => True) fun _ => False) (k.perform s) (fun _ _ => True)
      (fun _ => True) c := by
  have hforget {α : Type} {m : Compiling α} {kind : Declaration → Prop} {Q : α → Context → Prop}
      {E : ConversionError → Prop} (h : Ends (making s F kind fun _ => False) m Q E c) :
      Ends (making s F (fun _ => True) fun _ => False) (do let _ ← m) (fun _ _ => True)
        (fun _ => True) c :=
    ((h.widen (fun _ _ => trivial) fun _ h => h.elim).mono (fun _ _ _ _ h => h)
      fun _ _ => trivial).bind fun _ _ hc' _ _ => .pure hc' trivial
  cases k with
  | merge g =>
    have hmerge : Computes (remembering s F) (merge s (g.map (·.subject s))) _ :=
      computes_merge fun y hy => by
        obtain ⟨x, -, rfl⟩ := List.mem_map.mp (by rwa [Siblings.map_members] at hy)
        exact x.stands.digest
    exact (hmerge.making hc).mono (fun _ _ _ _ _ => trivial) fun _ _ => trivial
  | mergeChildren x =>
    exact (ends_mergeAll (fun y hy => Subject.stands_ofAll x.at_path hy) hc).mono
      (fun _ _ _ _ _ => trivial) fun _ _ => trivial
  | fingerprint x =>
    have hdigest : Ends (making s F (fun _ => True) fun _ => False) _ _ _ c :=
      x.stands.digest.making hc
    exact hforget hdigest
  | build g preferred =>
    exact hforget (ends_typeFor hs.grounded g.first.stands (g.first.bodied hs) hk hc)
  | body x name => exact hforget (x.bodied hs name c hc)
  | particle g => exact hforget (ends_particleOf hs.grounded g.first.stands (g.first.bodied hs) hc)
  | allocate preferred =>
    exact .modify (hc.allocate preferred)
      (.of_same rfl rfl ⟨_, usedNames_allocate c preferred⟩) trivial

theorem valid_of_reached (hs : s.NoCollision F) (h : Reached s F uri c) :
    Valid s F c := by
  induction h with
  | start => exact valid_start s _ uri
  | call _ k hk ih => exact (ends_perform hs k hk ih).holds

/-- A reference is to a built-in type. -/
def IsBuiltIn (ref : String) : Prop := ∃ p : Profile.Primitive, ref = p.reference

lemma isBuiltIn_of_extended {base : Profile.Primitive} {attributes : List Profile.AttributeUse}
    {ref : String} (h : ref ∈ base.reference :: attributes.map (·.primitive.reference)) :
    IsBuiltIn ref := by
  obtain rfl | h := List.mem_cons.mp h
  · exact ⟨base, rfl⟩
  · obtain ⟨a, -, rfl⟩ := List.mem_map.mp h
    exact ⟨_, rfl⟩

lemma isBuiltIn_of_leafContent {f : Profile.Facts} {ref : String}
    (h : ref ∈ (leafContentOf f).references) : IsBuiltIn ref := by
  unfold leafContentOf at h
  split at h
  · exact isBuiltIn_of_extended h
  · split at h
    · exact ⟨_, List.mem_singleton.mp h⟩
    · exact ⟨_, List.mem_singleton.mp h⟩

lemma isBuiltIn_of_leafBody {f : Profile.Facts} {ref : String}
    (h : ref ∈ (leafBodyOf f).references) : IsBuiltIn ref := by
  unfold leafBodyOf at h
  split at h
  · exact isBuiltIn_of_extended h
  · split at h
    · exact ⟨_, List.mem_singleton.mp h⟩
    · exact isBuiltIn_of_extended h

/-- A type that is mentioned is built in or comes from the given ones. -/
lemma references_of_bodyFits {qualified : Bool} {types : List TypeDefinition} {d : Declaration}
    {body : TypeBody} (h : BodyFits qualified s types d body) {ref : String}
    (href : ref ∈ body.references) :
    IsBuiltIn ref ∨ ∃ t ∈ types, ref = qualify qualified t.name := by
  cases h with
  | leaf hnil => exact .inl (isBuiltIn_of_leafBody href)
  | sequence hne hps =>
    obtain href | href := List.mem_append.mp href
    · obtain ⟨p, hp, href⟩ := List.mem_flatMap.mp href
      obtain ⟨g, -, hg⟩ := exists_of_mem_right hps hp
      have hcontent := hg.content
      generalize p.content = content at href hcontent
      cases hcontent with
      | named hne ht hdigest => exact .inr ⟨_, ht, List.mem_singleton.mp href⟩
      | leaf hnil => exact .inl (isBuiltIn_of_leafContent href)
    · obtain ⟨a, -, rfl⟩ := List.mem_map.mp href
      exact .inl ⟨_, rfl⟩

/-- What holds of the registry of a context, and of what calls make of it. -/
structure InOrder (s : Settings) (F : Forest) (c : Context) : Prop where
  names : (c.registry.types.map TypeDefinition.name).Nodup
  used : ∀ t ∈ c.registry.types, t.name ∈ c.registry.usedNames
  /-- A type that a body mentions is built in, or is exactly one of the types before it. -/
  references : ∀ (i : Nat) (t : TypeDefinition), c.registry.types[i]? = some t →
    ∀ ref ∈ t.body.references, IsBuiltIn ref ∨
      ∃ j < i, ∃ u : TypeDefinition, c.registry.types[j]? = some u ∧
      ref = qualify c.uri.isSome u.name ∧
        ∀ (k : Nat) (v : TypeDefinition), c.registry.types[k]? = some v →
          ref = qualify c.uri.isSome v.name → k = j
  /-- No call changes or takes away a type. -/
  grows : ∀ k : Call F, k.Bare → c.registry.types <+: ((k.perform s).run c).2.registry.types
  /-- What is put in when a type was not found is still not there after its body was compiled. -/
  closes :
    ∀ (g : Siblings (Place F)) (preferred digest : String) (body : TypeBody) (c₁ c₂ : Context),
    (g.first.subject s).digest.run c = (.ok digest, c₁) → c₁.registry.find? digest = none →
    ((g.first.subject s).body (c₁.registry.allocate preferred).1).run (c₁.allocate preferred) =
      (.ok body, c₂) → c₂.registry.find? digest = none
  /-- An element whose digest is there takes the type of that digest, and the registry stays. -/
  reuses : ∀ (g : Siblings (Place F)) (preferred digest : String) (c₁ : Context),
    (g.first.subject s).digest.run c = (.ok digest, c₁) →
    ∀ t ∈ c.registry.types, t.digest = digest →
    ∃ c₂, (typeFor (g.map (·.subject s)) preferred).run c = (.ok t.name, c₂) ∧
    c₂.registry = c.registry

/-- Whatever is asked of a compilation in whatever order, its registry is in order. -/
theorem registry_in_order (hs : s.NoCollision F) (h : Reached s F uri c) :
    InOrder s F c := by
  have hc := valid_of_reached hs h
  have hdigest (x : Place F) : Ends (making s F (fun _ => True) fun _ => False) _ _ _ c :=
    x.stands.digest.making hc
  refine ⟨hc.built.names_nodup, hc.used, ?_, ?_, ?_, ?_⟩
  · intro i t ht ref href
    obtain ⟨d, -, -, hbody⟩ := hc.built.described ht
    refine (references_of_bodyFits hbody href).imp_right fun ⟨u, hu, href⟩ => ?_
    obtain ⟨j, hj⟩ := List.mem_iff_getElem?.mp hu
    rw [List.getElem?_take] at hj
    split at hj
    · rename_i hji
      refine ⟨j, hji, u, hj, href, fun k v hk hv => ?_⟩
      have huv := hc.built.eq_of_qualify_eq (List.mem_of_getElem? hj) (List.mem_of_getElem? hk)
        (href.symm.trans hv)
      obtain ⟨hlt, -⟩ := List.getElem?_eq_some_iff.mp hk
      exact (List.getElem?_inj hlt (hc.built.names_nodup.of_map _)).mp (by rw [hk, hj, huv])
    · cases hj
  · intro k hk
    obtain ⟨new, hnew, -⟩ := (ends_perform hs k hk hc).moves.types
    exact ⟨new, hnew.symm⟩
  · intro g preferred digest body c₁ c₂ hd hnone hb
    have hends := hdigest g.first
    have hc₁ := hends.holds
    have hfp := hends.ok
    rw [hd] at hc₁ hfp
    obtain rfl := ((s.judgedRight _).ok _ (hfp _ rfl)).1
    have hgrows := (g.first.bodied hs (c₁.registry.allocate preferred).1 _
      (hc₁.allocate preferred)).moves
    rw [hb] at hgrows
    exact (hc₁.stays_free hs.grounded g.first.stands.has hnone hgrows).2.2
  · intro g preferred digest c₁ hd t ht htd
    have hsame := (g.first.stands.digest c hc.known).moves.2
    rw [hd] at hsame
    have hfind : c₁.registry.find? digest = some t := by
      rw [hsame, ← htd]
      exact Registry.find_of_mem hc.built.digests_nodup ht
    refine ⟨{ c₁ with events := .told (.reused g.name t.name) :: c₁.events }, ?_, hsame⟩
    unfold typeFor
    rw [run_bind, Siblings.map_first, hd]
    dsimp only
    rw [run_get_bind, hfind]
    rfl

end
def firstTwin : Place (.ofRoots twins) := ⟨[0], leaf "a", rfl⟩

def secondTwin : Place (.ofRoots twins) := ⟨[1], leaf "b", rfl⟩

/-- A name is taken, then types are asked for the two twins. -/
def twinCalls : List (Call (.ofRoots twins)) :=
  [.allocate "AType", .build ⟨"a", firstTwin, []⟩ "AType", .build ⟨"b", secondTwin, []⟩ "BType"]

def Call.after (s : Settings) {F : Forest} (calls : List (Call F)) (c : Context) : Context :=
  calls.foldl (fun c k => ((k.perform s).run c).2) c

lemma reached_after {s : Settings} {F : Forest} {uri : Option String} {calls : List (Call F)}
    {c : Context} (h : Reached s F uri c) (hbare : ∀ k ∈ calls, k.Bare) :
    Reached s F uri (Call.after s calls c) := by
  induction calls generalizing c with
  | nil => exact h
  | cons k calls ih => exact ih (h.call k (hbare k (by simp))) fun j hj => hbare j (by simp [hj])

lemma bare_twinCalls : ∀ k ∈ twinCalls, k.Bare := by
  simp only [twinCalls, List.forall_mem_cons, Call.Bare]
  refine ⟨⟨?_, ?_⟩, ⟨?_, ?_⟩, ⟨?_, ?_⟩, by simp⟩ <;> decide

lemma names_twinCalls :
    ((Call.after (.standard .permissive true) twinCalls (.start none)).registry.types.map
    TypeDefinition.name) = ["AType1"] := by
  rw [standard_eq]
  decide +kernel

/-- The twins share one type, whose name has a number since the name without one was taken. -/
theorem twins_in_order : ∃ c, Reached (.standard .permissive true) (.ofRoots twins) none c ∧
    c.registry.types.map TypeDefinition.name = ["AType1"] ∧
      InOrder (.standard .permissive true) (.ofRoots twins) c :=
  have hreached := reached_after .start bare_twinCalls
  ⟨_, hreached, names_twinCalls, registry_in_order (noCollision_twins .permissive) hreached⟩

end SchemaLoom.Xsd
