import SchemaLoom.Proofs.Xsd.Building

/-! Properties of the registry that are kept while it is compiled. Digests leave the registry alone,
so all that may break such a property is making a type: a body keeps it if the types of the elements
in it do. -/
namespace SchemaLoom.Xsd
open Profile (Declaration Facts Siblings Forest Trail)

/-- What is known of digests is right, and the registry has a property. -/
def keeping (s : Settings) (F : Forest) (I : Registry → Prop) : Discipline where
  holds c := Known s F c ∧ I c.registry
  moves c c' := c'.uri = c.uri
  refl := Context.uri_refl
  trans := Context.uri_trans

/-- A step keeps a property of the registry, whether it succeeds or fails. -/
def Upholds (s : Settings) (F : Forest) (I : Registry → Prop) {α : Type} (m : Compiling α) : Prop :=
  ∀ c, (keeping s F I).holds c → Ends (keeping s F I) m (fun _ _ => True) (fun _ => True) c

section
variable {s : Settings} {F : Forest} {I : Registry → Prop} {α β : Type}

/-- What is computed where digests are remembered leaves the registry alone. -/
theorem Computes.yields {m : Compiling α} {r : Except Profile.ConversionError α}
    (h : Computes (remembering s F) m r) :
    Yields (keeping s F I) m (r = .ok ·) :=
  .of_computes h (fun _ hc => hc.1) fun _ _ hc hknown hmoves =>
    ⟨⟨hknown, hmoves.2 ▸ hc.2⟩, hmoves.1⟩

namespace Upholds

theorem of_computes {m : Compiling α} {r : Except Profile.ConversionError α}
    (h : Computes (remembering s F) m r) : Upholds s F I m := h.yields.mono fun _ _ => trivial

theorem pure (a : α) : Upholds s F I (pure a : Compiling α) := Yields.pure trivial

theorem bind {m : Compiling α} {f : α → Compiling β} (hm : Upholds s F I m)
    (hf : ∀ a, Upholds s F I (f a)) : Upholds s F I (m >>= f) := Yields.skip hm hf

theorem get_bind {f : Context → Compiling β} (h : ∀ c, I c.registry → Upholds s F I (f c)) :
    Upholds s F I (get >>= f) := Yields.get_bind fun c hc => h c hc.2

theorem modify {f : Registry → Registry} (h : ∀ r, I r → I (f r)) :
    Upholds s F I (modify fun c => { c with registry := f c.registry }) :=
  fun _ hc => .modify ⟨hc.1, h _ hc.2⟩ rfl trivial

theorem mapM {xs : List α} {f : α → Compiling β} (h : ∀ x ∈ xs, Upholds s F I (f x)) :
    Upholds s F I (xs.mapM f) := (Yields.mapM h).mono fun _ _ => trivial

end Upholds

lemma upholds_requireLegal (name : String) : Upholds s F I (requireLegal name) :=
  .of_computes (computes_requireLegal name)

lemma upholds_mergeAll {xs : List Subject} (hxs : ∀ x ∈ xs, x.Stands s F) :
    Upholds s F I (mergeAll s (groups xs)) :=
  .of_computes (computes_mergeAll fun _ hg x hx =>
    (hxs x (Siblings.mem_of_mem_members hg hx)).digest)

lemma upholds_particleOf {g : Siblings Subject}
    (h : Upholds s F I (typeFor g (typeNameBase g.name))) :
    Upholds s F I (particleOf g) := by
  unfold particleOf
  dsimp only
  split
  · exact .bind h fun name => .get_bind fun c _ => .pure _
  · exact .bind (.of_computes (computes_leafContent _ _)) fun content => .pure _

/-- A body keeps what the types of the elements in it keep. -/
theorem upholds_bodyOf {path : Trail} {f : Facts} {children : List Declaration}
    (hpath : F.at? path = some (.mk f children))
    (h : ∀ g ∈ groups (Subject.ofAll s path 0 children),
    Upholds s F I (typeFor g (typeNameBase g.name)))
    (name : String) : Upholds s F I (bodyOf s path f (Subject.ofAll s path 0 children) name) := by
  rw [bodyOf_eq]
  refine .bind (upholds_mergeAll fun y hy => Subject.stands_ofAll hpath hy) fun _ => ?_
  split
  · refine .bind (upholds_requireLegal name) fun _ =>
      .bind (.mapM fun g hg => upholds_particleOf (h g hg)) fun ps => ?_
    exact .bind (.of_computes (computes_readAttributes path f)) fun _ => .pure _
  · exact .of_computes (computes_leafBody path f name)

lemma upholds_rootOf {g : Siblings Subject} (hg : ∀ x ∈ g.members, x.Stands s F)
    (h : Upholds s F I (typeFor g (typeNameBase g.name))) : Upholds s F I (rootOf s g) := by
  unfold rootOf
  refine .bind (.of_computes (computes_merge fun x hx => (hg x hx).digest)) fun _ =>
    .bind h fun name => ?_
  exact .bind (.of_computes (computes_tell _)) fun _ => .get_bind fun c _ => .pure _

end
end SchemaLoom.Xsd
