import SchemaLoom.Proofs.Profile.Siblings
import SchemaLoom.Profile.Declaration

/-! Declarations as trees: induction over the elements in an element, groups of elements by name,
and declarations by the places where they stand. -/
namespace SchemaLoom.Profile
namespace Declaration

mutual
/-- What passes from the elements in an element to the element holds of every declaration. -/
theorem induction {P : Declaration → Prop}
    (h : ∀ f children, (∀ d ∈ children, P d) → P (.mk f children)) : ∀ d, P d
  | .mk f children => h f children (induction_all h children)
theorem induction_all {P : Declaration → Prop}
    (h : ∀ f children, (∀ d ∈ children, P d) → P (.mk f children)) :
    ∀ ds : List Declaration, ∀ d ∈ ds, P d
  | [] => fun _ hd => absurd hd List.not_mem_nil
  | e :: rest => fun _ hd => (List.mem_cons.mp hd).elim (fun he => he ▸ induction h e)
      (induction_all h rest _)
end

mutual
/-- What is made of a declaration from its facts and from what is made of the elements in it. -/
def fold {α : Type} (h : Facts → List (Declaration × α) → α) : Declaration → α
  | .mk f children => h f (foldAll h children)
/-- Declarations with what is made of them. -/
def foldAll {α : Type} (h : Facts → List (Declaration × α) → α) :
    List Declaration → List (Declaration × α)
  | [] => []
  | d :: rest => (d, fold h d) :: foldAll h rest
end

theorem fold_eq {α : Type} (h : Facts → List (Declaration × α) → α) (d : Declaration) :
    fold h d = h d.facts (d.children.map fun e => (e, fold h e)) := by
  have hall (ds : List Declaration) : foldAll h ds = ds.map fun e => (e, fold h e) := by
    induction ds with
    | nil => rfl
    | cons d ds ih => rw [foldAll, ih]; rfl
  obtain ⟨f, children⟩ := d
  rw [fold, hall]
  rfl

/-- An element with all elements in it, at any depth. -/
def nested : Declaration → List Declaration := fold fun f known =>
  .mk f (known.map Prod.fst) :: known.flatMap Prod.snd

theorem nested_eq (d : Declaration) : d.nested = d :: d.children.flatMap nested := by
  rw [nested, fold_eq, List.map_map, List.flatMap_map]
  congr 1
  obtain ⟨f, children⟩ := d
  exact congrArg (mk f) (List.map_id children)

theorem mem_nested_self (d : Declaration) : d ∈ d.nested := by
  rw [nested_eq]
  exact List.mem_cons_self

theorem mem_nested_of_child (d : Declaration) :
    ∀ {e k : Declaration}, e ∈ d.nested → k ∈ e.children → k ∈ d.nested := by
  induction d using Declaration.induction with
  | h f children ih =>
    intro e k he hk
    rw [nested_eq] at he ⊢
    refine List.mem_cons_of_mem _ (List.mem_flatMap.mpr ?_)
    obtain rfl | he := List.mem_cons.mp he
    · exact ⟨k, hk, k.mem_nested_self⟩
    · obtain ⟨child, hchild, he⟩ := List.mem_flatMap.mp he
      exact ⟨child, hchild, ih child hchild he hk⟩

/-- The elements in an element, by name. -/
def groups (d : Declaration) : List (Siblings Declaration) := Siblings.byName name d.children

theorem groups_eq_nil {d : Declaration} : d.groups = [] ↔ d.children = [] := Siblings.byName_eq_nil

theorem first_mem_children {d : Declaration} {g : Siblings Declaration} (hg : g ∈ d.groups) :
    g.first ∈ d.children := Siblings.first_mem hg

theorem nodup_group_names (d : Declaration) : (d.groups.map Siblings.name).Nodup :=
  Siblings.nodup_names_byName _ _

/-- What is made of a declaration where the elements in it come by name. -/
def foldGroups {α : Type} (h : Facts → List (Siblings (Declaration × α)) → α) : Declaration → α :=
  fold fun f known => h f (Siblings.byName (·.1.name) known)

theorem foldGroups_eq {α : Type} (h : Facts → List (Siblings (Declaration × α)) → α)
    (d : Declaration) :
    foldGroups h d = h d.facts (d.groups.map (Siblings.map fun e => (e, foldGroups h e))) := by
  rw [foldGroups, fold_eq, Siblings.byName_map]
  rfl

/-- A declaration stands first in its group at some depth inside of another one. -/
inductive Leads : Declaration → Declaration → Prop
  | here {d : Declaration} {g : Siblings Declaration} (hg : g ∈ d.groups) : Leads d g.first
  | inside {d e : Declaration} {g : Siblings Declaration} (hg : g ∈ d.groups)
      (h : Leads g.first e) :
    Leads d e

/-- The way to an inner declaration begins with a group. -/
theorem Leads.step {d e : Declaration} (h : Leads d e) :
    ∃ g ∈ d.groups, e = g.first ∨ Leads g.first e := by
  cases h with
  | here hg => exact ⟨_, hg, .inl rfl⟩
  | inside hg h => exact ⟨_, hg, .inr h⟩

theorem Leads.trans {d e f : Declaration} (hde : Leads d e) (hef : Leads e f) : Leads d f := by
  induction hde with
  | here hg => exact .inside hg hef
  | inside hg _ ih => exact .inside hg (ih hef)

end Declaration

/-- Declarations with their places below another one, from a position on. -/
def placed (path : Trail) (k : Nat) : List Declaration → List (Trail × Declaration)
  | [] => []
  | d :: rest => (path ++ [k], d) :: placed path (k + 1) rest

@[simp] theorem placed_snd (path : Trail) (k : Nat) (ds : List Declaration) :
    (placed path k ds).map Prod.snd = ds := by
  induction ds generalizing k with
  | nil => rfl
  | cons d ds ih => rw [placed, List.map_cons, ih]

theorem mem_of_mem_placed {path : Trail} {k : Nat} {ds : List Declaration} {p : Trail × Declaration}
    (h : p ∈ placed path k ds) : p.2 ∈ ds := by
  rw [← placed_snd path k ds]
  exact List.mem_map_of_mem h

/-- A placed declaration stands at its place. -/
theorem getElem_of_mem_placed {path : Trail} {k : Nat} {ds : List Declaration}
    {p : Trail × Declaration} (h : p ∈ placed path k ds) :
    ∃ i, ds[i]? = some p.2 ∧ p.1 = path ++ [k + i] := by
  induction ds generalizing k with
  | nil => cases h
  | cons d ds ih =>
    obtain rfl | h := List.mem_cons.mp h
    · exact ⟨0, rfl, rfl⟩
    · obtain ⟨i, hi, hp⟩ := ih h
      exact ⟨i + 1, hi, by rw [hp, Nat.add_assoc, Nat.add_comm 1 i]⟩

/-- The groups of declarations with their places. -/
def placedGroups (path : Trail) (ds : List Declaration) : List (Siblings (Trail × Declaration)) :=
  Siblings.byName (·.2.name) (placed path 0 ds)

theorem placedGroups_map (path : Trail) (ds : List Declaration) :
    (placedGroups path ds).map (Siblings.map Prod.snd) = Siblings.byName Declaration.name ds := by
  unfold placedGroups
  conv_rhs => rw [← placed_snd path 0 ds, Siblings.byName_map]
  rfl

theorem placedGroups_snd (path : Trail) (d : Declaration) :
    (placedGroups path d.children).map (Siblings.map Prod.snd) = d.groups :=
  placedGroups_map path d.children

/-- Declarations by place: below a place that is taken stand the elements in its declaration. -/
structure Forest where
  at? : Trail → Option Declaration
  step : ∀ {path d}, at? path = some d → ∀ k, at? (path ++ [k]) = d.children[k]?

namespace Forest

theorem at_of_mem_placed {F : Forest} {path : Trail} {d : Declaration} (h : F.at? path = some d)
    {p : Trail × Declaration} (hp : p ∈ placed path 0 d.children) : F.at? p.1 = some p.2 := by
  obtain ⟨i, hi, htrail⟩ := getElem_of_mem_placed hp
  rw [htrail, F.step h, Nat.zero_add, hi]

def Has (F : Forest) (d : Declaration) : Prop := ∃ path, F.at? path = some d

theorem Has.child {F : Forest} {d e : Declaration} (hd : F.Has d) (he : e ∈ d.children) :
    F.Has e := by
  obtain ⟨path, hp⟩ := hd
  obtain ⟨k, hk, rfl⟩ := List.mem_iff_getElem.mp he
  exact ⟨path ++ [k], by rw [F.step hp]; exact List.getElem?_eq_getElem hk⟩

theorem Has.first {F : Forest} {d : Declaration} {g : Siblings Declaration} (hd : F.Has d)
    (hg : g ∈ d.groups) : F.Has g.first := hd.child (Declaration.first_mem_children hg)

theorem Has.leads {F : Forest} {d e : Declaration} (hd : F.Has d) (h : d.Leads e) : F.Has e := by
  induction h with
  | here hg => exact hd.first hg
  | inside hg _ ih => exact ih (hd.first hg)

lemma at_append (d : Declaration) (path : Trail) (k : Nat) :
    d.at? (path ++ [k]) = (d.at? path).bind (·.children[k]?) := by
  induction path generalizing d with
  | nil => simp [Declaration.at?]
  | cons j path ih =>
    simp only [List.cons_append, Declaration.at?, Option.bind_assoc]
    exact congrArg _ (funext fun e => ih e)

/-- The places at and below some declarations. -/
def ofRoots (roots : List Declaration) : Forest where
  at?
    | [] => none
    | k :: path => roots[k]?.bind (·.at? path)
  step := by
    intro path d h k
    cases path with
    | nil => simp at h
    | cons j path =>
      obtain ⟨e, he, hd⟩ := Option.bind_eq_some_iff.mp h
      simp only [List.cons_append, he, Option.bind_some, at_append, hd]

theorem at_ofRoots_of_mem_placed {roots : List Declaration} {p : Trail × Declaration}
    (hp : p ∈ placed [] 0 roots) : (ofRoots roots).at? p.1 = some p.2 := by
  obtain ⟨i, hi, htrail⟩ := getElem_of_mem_placed hp
  rw [htrail, Nat.zero_add]
  simp [ofRoots, hi, Declaration.at?]

theorem has_of_mem {roots : List Declaration} {d : Declaration} (h : d ∈ roots) :
    (ofRoots roots).Has d := by
  obtain ⟨k, hk, rfl⟩ := List.mem_iff_getElem.mp h
  exact ⟨[k], by simp [ofRoots, List.getElem?_eq_getElem hk, Declaration.at?]⟩

lemma has_induction {roots : List Declaration} {P : Declaration → Prop} (hroots : ∀ d ∈ roots, P d)
    (hstep : ∀ d, P d → ∀ e ∈ d.children, P e) {d : Declaration} (h : (ofRoots roots).Has d) :
    P d := by
  have hbelow (path : Trail) : ∀ e, P e → e.at? path = some d → P d := by
    induction path with
    | nil => intro e he hd; exact Option.some.inj hd ▸ he
    | cons k path ih =>
      intro e he hd
      obtain ⟨child, hchild, hd⟩ := Option.bind_eq_some_iff.mp hd
      exact ih child (hstep e he child (List.mem_of_getElem? hchild)) hd
  obtain ⟨path, hd⟩ := h
  cases path with
  | nil => cases hd
  | cons k path =>
    obtain ⟨e, he, hd⟩ := Option.bind_eq_some_iff.mp hd
    exact hbelow path e (hroots e (List.mem_of_getElem? he)) hd

theorem Has.of_subset {roots more : List Declaration} (hsub : roots ⊆ more) {d : Declaration}
    (h : (ofRoots roots).Has d) : (ofRoots more).Has d :=
  has_induction (fun _ hd => has_of_mem (hsub hd)) (fun _ hd _ he => hd.child he) h

theorem mem_nested_of_has {roots : List Declaration} {d : Declaration} (h : (ofRoots roots).Has d) :
    d ∈ roots.flatMap Declaration.nested := by
  refine has_induction (fun d hd => ?_) (fun d hd e he => ?_) h
  · exact List.mem_flatMap.mpr ⟨d, hd, d.mem_nested_self⟩
  · obtain ⟨root, hroot, hd⟩ := List.mem_flatMap.mp hd
    exact List.mem_flatMap.mpr ⟨root, hroot, root.mem_nested_of_child hd he⟩

end Forest
end SchemaLoom.Profile
