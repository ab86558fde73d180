import SchemaLoom.Proofs.Xsd.Census
import SchemaLoom.Proofs.Xsd.Rearrangement
import SchemaLoom.Proofs.Xsd.Upkeep

/-! Roots of new names that are put behind the others leave the schema as it is and add to its end.
Compiling the earlier roots reads nothing of the later ones, and compiling these changes no type
that is there. -/
namespace SchemaLoom.Xsd
open Profile (Declaration Facts Siblings Forest Trail Source ElementProfile placed
  nameOf elementTag)
open Xml (Node)

/-- A registry begins with some types. -/
def Registry.StartsWith (base : List TypeDefinition) (r : Registry) : Prop := base <+: r.types

/-- A schema is the beginning of another one. -/
structure Schema.Begins (schema longer : Schema) : Prop where
  uri : schema.uri = longer.uri
  roots : schema.roots <+: longer.roots
  types : schema.types <+: longer.types

section
variable {s : Settings} {F : Forest} {base : List TypeDefinition}

/-- A type whose digest is none of those at the beginning is put in behind them, also where it takes
the place of another one. -/
lemma Registry.StartsWith.register {r : Registry} (h : r.StartsWith base) {t : TypeDefinition}
    (hnew : ∀ old ∈ base, old.digest ≠ t.digest) : (r.register t).StartsWith base := by
  unfold Registry.register
  split
  · obtain ⟨rest, hrest⟩ := h
    have hsame : base.map (fun old => if old.digest == t.digest then t else old) = base := by
      conv_rhs => rw [← List.map_id base]
      refine List.map_congr_left fun old hold => ?_
      rw [if_neg (by simpa using hnew old hold)]
      rfl
    exact ⟨rest.map fun old => if old.digest == t.digest then t else old, by rw [← hrest,
      List.map_append, hsame]⟩
  · exact h.trans (List.prefix_append _ _)

lemma startsWith_typeFor {g : Siblings Subject} (hg : g.first.Stands s F)
    (hbody : ∀ name, Upholds s F (Registry.StartsWith base) (g.first.body name))
    (preferred : String) :
    Upholds s F (Registry.StartsWith base) (typeFor g preferred) := by
  unfold typeFor
  refine .bind (.of_computes hg.digest) fun digest => .get_bind fun c hc => ?_
  cases hfind : c.registry.find? digest with
  | some t => exact .bind (.of_computes (computes_tell _)) fun _ => .pure _
  | none =>
    have hnew : ∀ old ∈ base, old.digest ≠ digest := fun old hold =>
      Registry.find_eq_none.mp hfind old (hc.subset hold)
    refine .get_bind fun c _ => ?_
    refine .bind (.modify (f := fun r => (r.allocate preferred).2) fun r hr => hr) fun _ => ?_
    refine .bind (hbody _) fun body => ?_
    set made : TypeDefinition := ⟨(c.registry.allocate preferred).1, digest, body⟩
    exact .bind (.modify (f := (·.register made)) fun r hr => hr.register hnew) fun _ => .pure _

/-- Compiling a body leaves the types alone with which the registry begins. -/
theorem startsWith_body : ∀ (d : Declaration) (path : Trail), F.at? path = some d → ∀ name,
    Upholds s F (Registry.StartsWith base) ((Subject.of s path d).body name) := by
  intro d
  induction d using Declaration.induction with
  | h f children ih =>
    intro path hpath name
    refine upholds_bodyOf hpath (fun g hg => ?_) name
    obtain ⟨hst, hgroup, -⟩ := first_of_mem_groups hpath hg
    refine startsWith_typeFor hst (fun name => ?_) _
    rw [hst.eq_of]
    exact ih _ (Declaration.first_mem_children hgroup) _ hst.at_path name

lemma startsWith_rootOf {g : Siblings Subject} (hg : ∀ x ∈ g.members, x.Stands s F) :
    Upholds s F (Registry.StartsWith base) (rootOf s g) := by
  have hfirst := hg _ g.first_mem_members
  refine upholds_rootOf hg (startsWith_typeFor hfirst (fun name => ?_) _)
  rw [hfirst.eq_of]
  exact startsWith_body _ _ hfirst.at_path name

/-- Compiling roots puts types behind those that are there. -/
lemma prefix_of_mapM_rootOf {gs : List (Siblings Subject)}
    (hgs : ∀ g ∈ gs, ∀ x ∈ g.members, x.Stands s F) {c c' : Context}
    {declared : List (String × String)} (hc : Known s F c)
    (h : (gs.mapM (rootOf s)).run c = (.ok declared, c')) :
    Known s F c' ∧ c'.uri = c.uri ∧ c.registry.types <+: c'.registry.types := by
  have hends := Upholds.mapM (I := Registry.StartsWith c.registry.types)
    (fun g hg => startsWith_rootOf (hgs g hg)) c ⟨hc, List.prefix_refl _⟩
  have hholds := hends.holds
  have hmoves := hends.moves
  rw [h] at hholds hmoves
  exact ⟨hholds.1, hmoves, hholds.2⟩

end

/-! ## Schemas of the beginning of a document -/

lemma ofAll_append (s : Settings) (path : Trail) (k : Nat) (xs ys : List Declaration) :
    Subject.ofAll s path k (xs ++ ys) =
    Subject.ofAll s path k xs ++ Subject.ofAll s path (k + xs.length) ys := by
  induction xs generalizing k with
  | nil => rfl
  | cons d xs ih =>
    rw [List.cons_append, Subject.ofAll, ih, Subject.ofAll, List.cons_append,
      List.length_cons, Nat.add_assoc, Nat.add_comm 1]

/-- A schema is there where all roots were compiled and it can be put together. -/
lemma compile_eq_ok_iff_run {s : Settings} {p : ElementProfile} {schema : Schema} :
    compile s p = .ok schema ↔ ∃ declared c,
      ((groups (Subject.ofAll s [] 0 p.roots)).mapM (rootOf s)).run (.start p.uri) =
      (.ok declared, c) ∧
        Schema.make c.uri declared c.registry.types = .ok schema := by
  change ((compileRoots s p.roots).run (.start p.uri)).1 = _ ↔ _
  unfold compileRoots
  rw [run_bind]
  generalize ((groups (Subject.ofAll s [] 0 p.roots)).mapM (rootOf s)).run (.start p.uri) = done
  obtain ⟨e | declared, c⟩ := done
  · constructor
    · intro h
      cases h
    · rintro ⟨_, _, h, -⟩
      cases h
  · dsimp only
    rw [run_get_bind]
    constructor
    · intro h
      refine ⟨declared, c, rfl, ?_⟩
      cases hmake : Schema.make c.uri declared c.registry.types with
      | ok made =>
        rw [hmake] at h
        cases h
        rfl
      | error fault =>
        rw [hmake] at h
        cases h
    · rintro ⟨_, _, h, hmake⟩
      cases h
      rw [hmake]
      rfl

/-- Roots of new names have their groups behind those of the others. -/
lemma groups_ofAll_append (s : Settings) {roots more : List Declaration}
    (hnew : ∀ d ∈ more, d.name ∉ roots.map Declaration.name) :
    groups (Subject.ofAll s [] 0 (roots ++ more)) = groups (Subject.ofAll s [] 0 roots) ++
      groups (Subject.ofAll s [] (0 + roots.length) more) := by
  have hname (k : Nat) (ds : List Declaration) :
      (Subject.ofAll s [] k ds).map Subject.name = ds.map Declaration.name := by
    conv_rhs => rw [← Subject.declaration_ofAll s [] k ds, List.map_map]
    rfl
  rw [ofAll_append]
  refine Siblings.byName_append fun x hx => ?_
  have hmem := List.mem_map_of_mem (f := Subject.name) hx
  rw [hname] at hmem ⊢
  obtain ⟨d, hd, hsame⟩ := List.mem_map.mp hmem
  rw [← hsame]
  exact hnew d hd

/-- A profile with more roots behind the others, whose names are new, has a longer schema. -/
theorem begins_of_appended {s : Settings} {p p' : ElementProfile} {more : List Declaration}
    (huri : p.uri = p'.uri) (hmore : p'.roots = p.roots ++ more)
    (hnew : ∀ d ∈ more, d.name ∉ p.roots.map Declaration.name) {longer : Schema}
    (h : compile s p' = .ok longer) :
    ∃ schema, compile s p = .ok schema ∧ schema.Begins longer := by
  obtain ⟨all, c', hrun, hmake⟩ := compile_eq_ok_iff_run.mp h
  have hstands : ∀ g ∈ groups (Subject.ofAll s [] 0 p'.roots), ∀ x ∈ g.members,
      x.Stands s (.ofRoots p'.roots) := fun _ => Subject.stands_of_mem_group
  have hgroups := groups_ofAll_append s hnew
  rw [← hmore] at hgroups
  rw [hgroups] at hrun hstands
  rw [List.mapM_append, run_bind] at hrun
  -- The earlier roots are compiled as they are by themselves, and what follows begins with what
  -- they leave.
  rcases hearlier : ((groups (Subject.ofAll s [] 0 p.roots)).mapM (rootOf s)).run
    (.start p'.uri) with
    ⟨e | declared, c⟩
  · rw [hearlier] at hrun
    cases hrun
  rw [hearlier] at hrun
  dsimp only at hrun
  rw [run_bind] at hrun
  rcases hlater :
    ((groups (Subject.ofAll s [] (0 + p.roots.length) more)).mapM (rootOf s)).run c with
    ⟨e | added, c''⟩
  · rw [hlater] at hrun
    cases hrun
  rw [hlater] at hrun
  cases hrun
  obtain ⟨hc, -, -⟩ := prefix_of_mapM_rootOf (fun g hg => hstands g (List.mem_append_left _ hg))
    (known_start s _ p'.uri) hearlier
  obtain ⟨-, huri', htypes⟩ :=
    prefix_of_mapM_rootOf (fun g hg => hstands g (List.mem_append_right _ hg)) hc hlater
  obtain ⟨rfl, hlegal, hroots⟩ := made_of_make hmake
  rw [huri'] at hlegal
  have hmade : Made c.uri declared c.registry.types ⟨c.uri.filter (· != ""), declared,
      c.registry.types⟩ :=
    ⟨rfl, hlegal, fun root hroot => hroots root (List.mem_append_left _ hroot)⟩
  refine ⟨_, compile_eq_ok_iff_run.mpr ⟨declared, c, huri ▸ hearlier, make_of_made hmade⟩, ?_⟩
  exact ⟨by rw [huri'], List.prefix_append _ _, htypes⟩

/-- Roots that are put behind the others of a document, under names that none of these has, leave
the schema as it is up to its end: there is a schema for the others alone, its roots come first in
the schema for all of them, and so do its types, with their names and bodies. -/
theorem schema_begins_of_appended {s : Settings} {document document' : Node}
    {source source' : Source} {more : List Node} (hdoc : Source.ofDocument document = .ok source)
    (hdoc' : Source.ofDocument document' = .ok source') (huri : source.uri = source'.uri)
    (hmore : source'.holder.content = source.holder.content ++ more)
    (hnew : ∀ n ∈ declaring more, nameOf n ∉ (declaring source.holder.content).map nameOf)
    {longer : Schema} (h : compile s source'.profile = .ok longer) :
    ∃ schema, compile s source.profile = .ok schema ∧
      schema.Begins longer ∧ convert s document = .ok schema.text ∧
      convert s document' = .ok longer.text := by
  have hroots : source'.profile.roots = source.profile.roots ++ Declaration.ofNodes more := by
    rw [roots_profile_eq, roots_profile_eq, hmore, ofNodes_append]
  have hfresh : ∀ d ∈ Declaration.ofNodes more,
      d.name ∉ source.profile.roots.map Declaration.name := by
    rw [roots_profile_eq, names_declaring, Profile.ofNodes_eq]
    intro d hd
    obtain ⟨n, hn, rfl⟩ := List.mem_map.mp hd
    rw [Profile.name_ofNode]
    exact hnew n hn
  obtain ⟨schema, hschema, hbegins⟩ := begins_of_appended huri hroots hfresh h
  exact ⟨schema, hschema, hbegins, (convert_eq_ok_iff hdoc).mpr ⟨schema, hschema, rfl⟩,
    (convert_eq_ok_iff hdoc').mpr ⟨longer, h, rfl⟩⟩

/-- The order by itself. -/
def purchase : Source := ⟨none, .element (.plain "DataElements") [] [] [purchaseNode]⟩

def purchaseDocument : Node := .element (.plain "XMLProfile") [] [] [purchase.holder]

/-- The types for the order come first when a number and a line are put behind it. The line takes
one of them, and the number wants the name of one. -/
theorem purchases_begin_with_order : ∃ schema longer,
    Source.ofDocument purchaseDocument = .ok purchase ∧
    Source.ofDocument purchasesDocument = .ok purchases ∧
    purchases.holder.content = purchase.holder.content ++ [amountNode, lineNode] ∧
    (∀ n ∈ declaring [amountNode, lineNode],
    nameOf n ∉ (declaring purchase.holder.content).map nameOf) ∧
    compile (.standard .permissive true) purchase.profile = .ok schema ∧
    compile (.standard .permissive true) purchases.profile = .ok longer ∧ schema.Begins longer ∧
    longer.types.map TypeDefinition.name = ["ItemType", "OrderType", "ItemType1"] := by
  obtain ⟨longer, hlonger, hnames⟩ := Option.map_eq_some_iff.mp names_purchases
  have hcompile := eq_ok_of_toOption hlonger
  have hdoc : Source.ofDocument purchaseDocument = .ok purchase := rfl
  have hdoc' : Source.ofDocument purchasesDocument = .ok purchases := rfl
  have hmore : purchases.holder.content = purchase.holder.content ++ [amountNode, lineNode] := rfl
  have hnew : ∀ n ∈ declaring [amountNode, lineNode],
      nameOf n ∉ (declaring purchase.holder.content).map nameOf := by
    have hnames : (declaring [amountNode, lineNode]).map nameOf = ["Item", "line"] := by
      decide +kernel
    have hother : (declaring purchase.holder.content).map nameOf = ["order"] := by decide +kernel
    intro n hn hold
    have hmem := List.mem_map_of_mem (f := nameOf) hn
    rw [hother, List.mem_singleton] at hold
    rw [hnames, hold] at hmem
    exact absurd hmem (by decide)
  obtain ⟨schema, hschema, hbegins, -⟩ :=
    schema_begins_of_appended hdoc hdoc' rfl hmore hnew hcompile
  exact ⟨schema, longer, hdoc, hdoc', hmore, hnew, hschema, hcompile, hbegins, hnames⟩

end SchemaLoom.Xsd
