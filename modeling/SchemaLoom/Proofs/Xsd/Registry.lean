import SchemaLoom.Proofs.Traversal
import SchemaLoom.Proofs.Xsd.Fingerprint
import SchemaLoom.Proofs.Xsd.Names

/-! What the types of a registry are: each describes a declaration, has that declaration's
fingerprint, and refers to types before it only. Names and digests occur once. -/
namespace SchemaLoom.Xsd
open Profile (Declaration Facts Siblings Forest)

/-- The type of an element without elements in it, inside of a sequence. -/
def leafContentOf (f : Facts) : Content :=
  if !f.attributes.isEmpty then .extended f.primitive f.attributes
  else if !f.facets.isEmpty && f.primitive == .string then .restricted f.facets
  else .builtin f.primitive

/-- The body of the type of an element without elements in it. -/
def leafBodyOf (f : Facts) : TypeBody :=
  if !f.attributes.isEmpty then .extended f.primitive f.attributes
  else if !f.facets.isEmpty && f.primitive == .string then .restricted f.facets
  else .extended f.primitive []

/-- The content and the type of an element without elements in it are of one of three kinds. -/
lemma leaf_cases (f : Facts) :
    (leafContentOf f = .extended f.primitive f.attributes ∧
      leafBodyOf f = .extended f.primitive f.attributes) ∨
    f.attributes = [] ∧ f.primitive = .string ∧
      leafContentOf f = .restricted f.facets ∧ leafBodyOf f = .restricted f.facets ∨
    f.attributes = [] ∧
      leafContentOf f = .builtin f.primitive ∧ leafBodyOf f = .extended f.primitive [] := by
  unfold leafContentOf leafBodyOf
  split
  · exact .inl ⟨rfl, rfl⟩
  · rename_i hempty
    have hnone : f.attributes = [] := by simpa using hempty
    split
    · rename_i hfacets
      have hstring : f.primitive = .string := by
        simp only [Bool.and_eq_true, beq_iff_eq] at hfacets
        exact hfacets.2
      exact .inr (.inl ⟨hnone, hstring, rfl, rfl⟩)
    · exact .inr (.inr ⟨hnone, rfl, rfl⟩)

lemma leafBodyOf_ne_sequence (f : Facts) (particles : List Particle)
    (attributes : List Profile.AttributeUse) :
    leafBodyOf f ≠ .sequence particles attributes := by
  obtain ⟨-, h⟩ | ⟨-, -, -, h⟩ | ⟨-, -, h⟩ := leaf_cases f <;> simp [h]

section
variable (qualified : Bool) (s : Settings)

/-- What a particle carries describes a declaration: a reference to a type of its fingerprint where
there are elements in it, and its facts else. -/
inductive ContentFits (types : List TypeDefinition) (d : Declaration) : Content → Prop
  | named {t : TypeDefinition} (hne : d.children ≠ []) (ht : t ∈ types)
    (hdigest : t.digest = s.fingerprint d) : ContentFits types d (.named (qualify qualified t.name))
  | leaf (hnil : d.children = []) : ContentFits types d (leafContentOf d.facts)

/-- A particle describes a group. -/
structure ParticleFits (types : List TypeDefinition) (g : Siblings Declaration) (p : Particle) :
    Prop where
  name : p.name = g.name
  range : p.range = g.range Declaration.range
  content : ContentFits qualified s types g.first p.content

/-- A body describes a declaration. -/
inductive BodyFits (types : List TypeDefinition) (d : Declaration) : TypeBody → Prop
  | sequence {particles : List Particle} (hne : d.children ≠ [])
    (h : List.Forall₂ (ParticleFits qualified s types) d.groups particles) :
    BodyFits types d (.sequence particles d.attributes)
  | leaf (hnil : d.children = []) : BodyFits types d (leafBodyOf d.facts)

/-- Types in the order in which they were made for declarations that stand somewhere. -/
inductive Built (F : Forest) : List TypeDefinition → Prop
  | nil : Built F []
  | snoc {types : List TypeDefinition} {t : TypeDefinition} {d : Declaration} (h : Built F types)
    (hd : F.Has d) (digest : t.digest = s.fingerprint d)
    (body : BodyFits qualified s types d t.body)
    (bare : IsBare t.name) (newName : t.name ∉ types.map TypeDefinition.name)
    (newDigest : t.digest ∉ types.map TypeDefinition.digest) : Built F (types ++ [t])

end

section
variable {qualified : Bool} {s : Settings} {F : Forest} {types more : List TypeDefinition}

lemma ContentFits.mono {d : Declaration} {content : Content}
    (h : ContentFits qualified s types d content) (hsub : types ⊆ more) :
    ContentFits qualified s more d content := by
  cases h with
  | named hne ht hdigest => exact .named hne (hsub ht) hdigest
  | leaf hnil => exact .leaf hnil

lemma ParticleFits.mono {g : Siblings Declaration} {p : Particle}
    (h : ParticleFits qualified s types g p) (hsub : types ⊆ more) :
    ParticleFits qualified s more g p := ⟨h.name, h.range, h.content.mono hsub⟩

lemma BodyFits.mono {d : Declaration} {body : TypeBody} (h : BodyFits qualified s types d body)
    (hsub : types ⊆ more) : BodyFits qualified s more d body := by
  cases h with
  | sequence hne h => exact .sequence hne (h.imp fun _ _ hp => hp.mono hsub)
  | leaf hnil => exact .leaf hnil

/-- The particles of a sequence are those of the groups of what it describes. -/
lemma BodyFits.particles {d : Declaration} {particles : List Particle}
    {attributes : List Profile.AttributeUse}
    (h : BodyFits qualified s types d (.sequence particles attributes)) :
    List.Forall₂ (ParticleFits qualified s types) d.groups particles := by
  generalize hsequence : TypeBody.sequence particles attributes = body at h
  cases h with
  | leaf hnil => exact absurd hsequence.symm (leafBodyOf_ne_sequence _ _ _)
  | sequence hne h => exact (TypeBody.sequence.inj hsequence).1 ▸ h

/-- What has groups is described by a sequence, and each group by a particle of it. -/
lemma BodyFits.exists_particle {d : Declaration} {body : TypeBody}
    (h : BodyFits qualified s types d body) {g : Siblings Declaration} (hg : g ∈ d.groups) :
    ∃ particles, body = .sequence particles d.attributes ∧
    ∃ p ∈ particles, ParticleFits qualified s types g p := by
  cases h with
  | leaf hnil =>
    rw [← Declaration.groups_eq_nil] at hnil
    exact absurd hg (hnil ▸ List.not_mem_nil)
  | sequence hne h => exact ⟨_, rfl, exists_of_mem_left h hg⟩

lemma leafContentOf_congr {f f' : Facts} (hp : f.primitive = f'.primitive)
    (hf : f.facets = f'.facets) (ha : f.attributes = f'.attributes) :
    leafContentOf f = leafContentOf f' := by
  rw [leafContentOf, hp, hf, ha, leafContentOf]

lemma leafBodyOf_congr {f f' : Facts} (hp : f.primitive = f'.primitive) (hf : f.facets = f'.facets)
    (ha : f.attributes = f'.attributes) : leafBodyOf f = leafBodyOf f' := by
  rw [leafBodyOf, hp, hf, ha, leafBodyOf]

lemma children_eq_nil_of_entries {a b : Declaration}
    (h : a.groups.map s.entry = b.groups.map s.entry) : a.children = [] ↔ b.children = [] := by
  rw [← Declaration.groups_eq_nil, ← Declaration.groups_eq_nil]
  rw [← List.map_eq_nil_iff (f := s.entry), h, List.map_eq_nil_iff]

/-- What describes a declaration describes all declarations of its fingerprint. -/
lemma ContentFits.congr (hs : s.NoCollision F) {a b : Declaration} (ha : F.Has a) (hb : F.Has b)
    (hab : s.fingerprint a = s.fingerprint b) {content : Content}
    (h : ContentFits qualified s types a content) : ContentFits qualified s types b content := by
  obtain ⟨hp, hf, hat, he, -⟩ := Settings.parts_of_textOf_eq (hs a b ha hb hab)
  cases h with
  | named hne ht hdigest =>
    exact .named (fun hnil => hne ((children_eq_nil_of_entries he).mpr hnil)) ht (hdigest.trans hab)
  | leaf hnil =>
    rw [leafContentOf_congr hp hf hat]
    exact .leaf ((children_eq_nil_of_entries he).mp hnil)

lemma BodyFits.congr (hs : s.NoCollision F) {a b : Declaration} (ha : F.Has a) (hb : F.Has b)
    (hab : s.fingerprint a = s.fingerprint b) {body : TypeBody}
    (h : BodyFits qualified s types a body) : BodyFits qualified s types b body := by
  obtain ⟨hp, hf, hat, he, -⟩ := Settings.parts_of_textOf_eq (hs a b ha hb hab)
  cases h with
  | sequence hne h =>
    rw [hat]
    refine .sequence (fun hnil => hne ((children_eq_nil_of_entries he).mpr hnil)) ?_
    refine forall₂_of_map_eq h he fun g hg k hk p hgk hfits => ?_
    have hname : g.name = k.name := congrArg Entry.name hgk
    have hrange : g.range Declaration.range = k.range Declaration.range := congrArg Entry.range hgk
    have hdigest : s.fingerprint g.first = s.fingerprint k.first := congrArg Entry.digest hgk
    exact ⟨hfits.name.trans hname, hfits.range.trans hrange,
      hfits.content.congr hs (ha.first hg) (hb.first hk) hdigest⟩
  | leaf hnil =>
    rw [leafBodyOf_congr hp hf hat]
    exact .leaf ((children_eq_nil_of_entries he).mp hnil)

namespace Built

theorem names_nodup (h : Built qualified s F types) : (types.map TypeDefinition.name).Nodup := by
  induction h with
  | nil => exact List.nodup_nil
  | snoc _ _ _ _ _ newName _ ih =>
    rw [List.map_append, List.map_singleton, ← List.concat_eq_append]
    exact ih.concat newName

theorem digests_nodup (h : Built qualified s F types) :
    (types.map TypeDefinition.digest).Nodup := by
  induction h with
  | nil => exact List.nodup_nil
  | snoc _ _ _ _ _ _ newDigest ih =>
    rw [List.map_append, List.map_singleton, ← List.concat_eq_append]
    exact ih.concat newDigest

theorem isBare (h : Built qualified s F types) {t : TypeDefinition} (ht : t ∈ types) :
    IsBare t.name := by
  induction h with
  | nil => simp at ht
  | snoc _ _ _ _ bare _ _ ih =>
    obtain ht | ht := List.mem_append.mp ht
    · exact ih ht
    · exact List.mem_singleton.mp ht ▸ bare

/-- Every type describes a declaration by means of the types before it. -/
theorem described (h : Built qualified s F types) {i : Nat} {t : TypeDefinition}
    (ht : types[i]? = some t) : ∃ d, F.Has d ∧ t.digest = s.fingerprint d ∧
      BodyFits qualified s (types.take i) d t.body := by
  induction h with
  | nil => simp at ht
  | @snoc types u d _ hd digest body _ _ _ ih =>
    obtain hlt | hge := Nat.lt_or_ge i types.length
    · rw [List.getElem?_append_left hlt] at ht
      rw [List.take_append_of_le_length (Nat.le_of_lt hlt)]
      exact ih ht
    · rw [List.getElem?_append_right hge] at ht
      obtain ⟨hi, rfl⟩ : i - types.length = 0 ∧ u = t := by
        cases hk : i - types.length with
        | zero => simpa [hk] using ht
        | succ k => simp [hk] at ht
      obtain rfl : i = types.length := by omega
      exact ⟨d, hd, digest, by rwa [List.take_left]⟩

/-- A type describes every declaration that has its digest for a fingerprint. -/
theorem fits (hs : s.NoCollision F) (h : Built qualified s F types) {t : TypeDefinition}
    (ht : t ∈ types) {d : Declaration} (hd : F.Has d) (hdigest : t.digest = s.fingerprint d) :
    BodyFits qualified s types d t.body := by
  obtain ⟨i, hi⟩ := List.mem_iff_getElem?.mp ht
  obtain ⟨e, he, hedigest, hbody⟩ := h.described hi
  exact (hbody.mono (List.take_subset i types)).congr hs he hd (hedigest.symm.trans hdigest)

/-- A reference names one type. -/
theorem eq_of_qualify_eq (h : Built qualified s F types) {t u : TypeDefinition} (ht : t ∈ types)
    (hu : u ∈ types) (he : qualify qualified t.name = qualify qualified u.name) : t = u :=
  List.inj_on_of_nodup_map h.names_nodup ht hu (qualify_injective (h.isBare ht) (h.isBare hu) he)

end Built

/-! ## Lookups -/

namespace Registry

theorem find_eq_some {r : Registry} {digest : String} {t : TypeDefinition}
    (h : r.find? digest = some t) : t ∈ r.types ∧ t.digest = digest := by
  refine ⟨List.mem_of_find?_eq_some h, ?_⟩
  simpa using List.find?_some (p := fun t : TypeDefinition => t.digest == digest) h

theorem find_eq_none {r : Registry} {digest : String} :
    r.find? digest = none ↔ ∀ t ∈ r.types, t.digest ≠ digest := by
  simp [find?, List.find?_eq_none]

/-- The type of a digest that occurs once is found by it. -/
theorem find_of_mem {r : Registry} {t : TypeDefinition}
    (hnodup : (r.types.map TypeDefinition.digest).Nodup) (ht : t ∈ r.types) :
    r.find? t.digest = some t := by
  cases hf : r.find? t.digest with
  | none => exact absurd rfl (find_eq_none.mp hf t ht)
  | some u =>
    obtain ⟨hu, hd⟩ := find_eq_some hf
    rw [List.inj_on_of_nodup_map hnodup hu ht hd]

/-- A type of a new digest is put behind the others. -/
theorem register_of_new {r : Registry} {t : TypeDefinition} (h : r.find? t.digest = none) :
    r.register t = { r with types := r.types ++ [t] } := by
  simp [register, h]

end Registry
end
end SchemaLoom.Xsd
