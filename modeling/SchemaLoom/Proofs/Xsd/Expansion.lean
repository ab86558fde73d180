import SchemaLoom.Proofs.Profile.Range
import SchemaLoom.Proofs.Xsd.Roots

/-! What an element may hold once no reference is left to follow: by a schema, whose named types are
put in for references to them, and by a declaration, which is read without any registry. -/
namespace SchemaLoom.Xsd
open Profile (Declaration Facts Siblings Forest Primitive Facet Range AttributeUse firstOccurrences)

/-- Content in full: a value of a built-in type, or elements in a sequence with their ranges. -/
inductive Expansion where
  | value (primitive : Primitive) (facets : List Facet) (attributes : List AttributeUse)
  | sequence (particles : List (String × Range × Expansion)) (attributes : List AttributeUse)

namespace Expansion

/-- The content of an element without elements in it. Facets count for text without attributes. -/
def ofFacts (f : Facts) : Expansion :=
  if f.attributes.isEmpty && f.primitive == .string then .value f.primitive f.facets []
  else .value f.primitive [] f.attributes

/-- The particle of a name: the range around all elements of that name and the content of the
first. -/
def particleOf? (known : List (Declaration × Expansion)) (name : String) :
    Option (String × Range × Expansion) :=
  let named := known.filter (·.1.name == name)
  named.head?.map fun first => (name, Range.span (named.map (·.1.range)), first.2)

/-- The content of an element as it is declared: one particle for each name of the elements in it,
in the order of first occurrence. -/
def naive : Declaration → Expansion := Declaration.fold fun f known =>
  if known.isEmpty then ofFacts f
  else .sequence ((firstOccurrences (known.map (·.1.name))).filterMap (particleOf? known))
    f.attributes

def ofGroup (g : Siblings Declaration) : String × Range × Expansion :=
  (g.name, g.range Declaration.range, naive g.first)

lemma particleOf_eq (children : List Declaration) (name : String) :
    particleOf? (children.map fun e => (e, naive e)) name =
      (Siblings.ofList? name (children.filter (·.name == name))).map ofGroup := by
  have hnamed : (children.map fun e => (e, naive e)).filter (·.1.name == name) =
      (children.filter (·.name == name)).map fun e => (e, naive e) := List.filter_map
  simp only [particleOf?, hnamed]
  cases children.filter (·.name == name) with
  | nil => rfl
  | cons first others =>
    have hspan := Range.combineAll_eq_span first.range (others.map Declaration.range)
    simp only [List.map_cons, List.head?_cons, Option.map_some, Siblings.ofList?,
      ofGroup, Siblings.range, hspan, List.map_map]
    rfl

theorem naive_eq (d : Declaration) : naive d =
    if d.children.isEmpty then ofFacts d.facts
    else .sequence (d.groups.map ofGroup) d.attributes := by
  rw [naive, Declaration.fold_eq, ← naive]
  simp only [List.isEmpty_map, List.map_map]
  split
  · rfl
  · rw [Declaration.groups, Siblings.byName, List.map_filterMap]
    congr 1
    exact List.filterMap_congr fun name _ => particleOf_eq d.children name

end Expansion

mutual
/-- What a particle of a schema carries, in full. -/
inductive Unfolds (schema : Schema) : Content → Expansion → Prop
  | builtin (p : Primitive) : Unfolds schema (.builtin p) (.value p [] [])
  | restricted (facets : List Facet) :
      Unfolds schema (.restricted facets) (.value .string facets [])
  | extended (p : Primitive) (attributes : List AttributeUse) :
    Unfolds schema (.extended p attributes) (.value p [] attributes)
  | named {t : TypeDefinition} {e : Expansion} (ht : t ∈ schema.types)
    (h : UnfoldsBody schema t.body e) :
    Unfolds schema (.named (qualify schema.uri.isSome t.name)) e
/-- The body of a type in full. -/
inductive UnfoldsBody (schema : Schema) : TypeBody → Expansion → Prop
  | restricted (facets : List Facet) :
      UnfoldsBody schema (.restricted facets) (.value .string facets [])
  | extended (p : Primitive) (attributes : List AttributeUse) :
    UnfoldsBody schema (.extended p attributes) (.value p [] attributes)
  | sequence {ps : List Particle} {es : List (String × Range × Expansion)}
    (attributes : List AttributeUse) (h : UnfoldsAll schema ps es) :
    UnfoldsBody schema (.sequence ps attributes) (.sequence es attributes)
/-- Particles in full. -/
inductive UnfoldsAll (schema : Schema) : List Particle → List (String × Range × Expansion) → Prop
  | nil : UnfoldsAll schema [] []
  | cons {p : Particle} {e : Expansion} {ps : List Particle}
      {es : List (String × Range × Expansion)}
    (h : Unfolds schema p.content e) (hs : UnfoldsAll schema ps es) :
    UnfoldsAll schema (p :: ps) ((p.name, p.range, e) :: es)
end

section
variable {s : Settings} {F : Forest} {schema : Schema}

lemma unfolds_leafContent (f : Facts) (e : Expansion) :
    Unfolds schema (leafContentOf f) e ↔ e = .ofFacts f := by
  obtain ⟨name, primitive, facets, range, attributes⟩ := f
  cases attributes with
  | cons a rest =>
    constructor
    · intro h
      cases h
      rfl
    · rintro rfl
      exact .extended _ _
  | nil =>
    cases primitive <;> cases facets <;> constructor <;> intro h
    all_goals first
      | (cases h; rfl)
      | (subst h; exact .builtin _)
      | (subst h; exact .restricted _)

lemma unfolds_leafBody (f : Facts) (e : Expansion) :
    UnfoldsBody schema (leafBodyOf f) e ↔ e = .ofFacts f := by
  obtain ⟨name, primitive, facets, range, attributes⟩ := f
  cases attributes with
  | cons a rest =>
    constructor
    · intro h
      cases h
      rfl
    · rintro rfl
      exact .extended _ _
  | nil =>
    cases primitive <;> cases facets <;> constructor <;> intro h
    all_goals first
      | (cases h; rfl)
      | (subst h; exact .extended _ _)
      | (subst h; exact .restricted _)

/-- Particles that describe groups unfold to the particles of the groups and to nothing else. -/
lemma unfoldsAll_iff {gs : List (Siblings Declaration)} {ps : List Particle} {q : Bool}
    {types : List TypeDefinition} (h : List.Forall₂ (ParticleFits q s types) gs ps)
    (hfirst : ∀ g ∈ gs, ∀ content, ContentFits q s types g.first content →
      ∀ e, Unfolds schema content e ↔ e = .naive g.first) (es : List (String × Range × Expansion)) :
    UnfoldsAll schema ps es ↔ es = gs.map Expansion.ofGroup := by
  induction h generalizing es with
  | nil =>
    constructor
    · intro h
      cases h
      rfl
    · rintro rfl
      exact .nil
  | @cons g p gs ps hp _ ih =>
    have hg := hfirst g (by simp) _ hp.content
    have hgs := ih fun k hk => hfirst k (by simp [hk])
    constructor
    · intro h
      cases h with
      | cons he hes =>
        rw [(hg _).mp he, (hgs _).mp hes, hp.name, hp.range]
        rfl
    · rintro rfl
      rw [List.map_cons, Expansion.ofGroup, ← hp.name, ← hp.range]
      exact .cons ((hg _).mpr rfl) ((hgs _).mpr rfl)

/-- A reference unfolds as the only type of its name does. -/
lemma unfolds_named_iff (hbuilt : Built schema.uri.isSome s F schema.types) {t : TypeDefinition}
    (ht : t ∈ schema.types) (e : Expansion) :
    Unfolds schema (.named (qualify schema.uri.isSome t.name)) e ↔ UnfoldsBody schema t.body e := by
  constructor
  · intro h
    generalize hc : Content.named (qualify schema.uri.isSome t.name) = content at h
    cases h with
    | builtin p => cases hc
    | restricted facets => cases hc
    | extended p attributes => cases hc
    | @named u e hu hbody =>
      have hq := Content.named.inj hc
      rwa [hbuilt.eq_of_qualify_eq ht hu hq]
  · exact .named ht

variable (hs : s.NoCollision F) (hbuilt : Built schema.uri.isSome s F schema.types)
include hs hbuilt

lemma unfolds_content_iff {d : Declaration} (hd : F.Has d)
    (hbody : ∀ body, BodyFits schema.uri.isSome s schema.types d body →
      ∀ e, UnfoldsBody schema body e ↔ e = .naive d) {content : Content}
    (h : ContentFits schema.uri.isSome s schema.types d content) (e : Expansion) :
    Unfolds schema content e ↔ e = .naive d := by
  cases h with
  | named hne ht hdigest =>
    rw [unfolds_named_iff hbuilt ht]
    exact hbody _ (hbuilt.fits hs ht hd hdigest) e
  | leaf hnil =>
    rw [unfolds_leafContent, Expansion.naive_eq]
    simp [hnil]

/-- A body that describes a declaration unfolds to its naive expansion and to nothing else. -/
theorem unfoldsBody_iff : ∀ d : Declaration, F.Has d → ∀ body,
    BodyFits schema.uri.isSome s schema.types d body → ∀ e, UnfoldsBody schema body e ↔
    e = .naive d := by
  intro d
  induction d using Declaration.induction with
  | h f children ih =>
    intro hd body hbody e
    rw [Expansion.naive_eq]
    cases hbody with
    | leaf hnil =>
      rw [unfolds_leafBody]
      simp [hnil]
    | @sequence ps hne hps =>
      have hall := unfoldsAll_iff hps fun g hg content hcontent e =>
        unfolds_content_iff hs hbuilt (hd.first hg)
          (ih _ (Declaration.first_mem_children hg) (hd.first hg)) hcontent e
      have hempty : (Declaration.mk f children).children.isEmpty = false := by
        simpa using hne
      simp only [hempty]
      constructor
      · intro h
        cases h with
        | sequence attributes h => rw [(hall _).mp h]; rfl
      · rintro rfl
        exact .sequence _ ((hall _).mpr rfl)

/-- A reference to a type of the fingerprint of a declaration unfolds to its naive expansion. -/
theorem unfolds_reference_iff {d : Declaration} (hd : F.Has d) {t : TypeDefinition}
    (ht : t ∈ schema.types) (hdigest : t.digest = s.fingerprint d) (e : Expansion) :
    Unfolds schema (.named (qualify schema.uri.isSome t.name)) e ↔ e = .naive d := by
  rw [unfolds_named_iff hbuilt ht]
  exact unfoldsBody_iff hs hbuilt d hd _ (hbuilt.fits hs ht hd hdigest) e

end
end SchemaLoom.Xsd
