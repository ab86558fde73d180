import Mathlib.Data.List.Nodup
import SchemaLoom.Proofs.Profile.Declaration

/-! The walk of a profile: from each declaration on to the first one of each name in it, if that has
elements in it itself. Declarations come before or behind what is visited from them on. -/
namespace SchemaLoom.Profile

/-- A declaration at its place. -/
abbrev Visit := Trail × Declaration

namespace Declaration

mutual
/-- What is visited from a declaration on, itself included, in some order. -/
def walk (arrange : Visit → List Visit → List Visit) (path : Trail) : Declaration → List Visit
  | .mk f children =>
    let groups := Siblings.byName (·.1.2.name) (walkEach arrange path 0 children)
    arrange (path, .mk f children) <| groups.flatMap fun g =>
      if g.first.1.2.children.isEmpty then [] else g.first.2
/-- What is visited from each of some declarations on, if they are visited. -/
def walkEach (arrange : Visit → List Visit → List Visit) (path : Trail) (position : Nat) :
    List Declaration → List (Visit × List Visit)
  | [] => []
  | d :: rest =>
    ((path ++ [position], d), walk arrange (path ++ [position]) d) ::
      walkEach arrange path (position + 1) rest
end

end Declaration

/-- The first declaration of a name is visited, if there are elements in it. -/
def nextOf (g : Siblings Visit) : List Visit := if g.first.2.children.isEmpty then [] else [g.first]

/-- What is visited right after a declaration at a place. -/
def nextVisits (path : Trail) (d : Declaration) : List Visit :=
  (placedGroups path d.children).flatMap nextOf

/-- The visits that a walk begins with: the first root declaration of each name. -/
def rootVisits (roots : List Declaration) : List Visit := (placedGroups [] roots).map Siblings.first

/-- What is visited from some declarations on. -/
def walks (arrange : Visit → List Visit → List Visit) (visits : List Visit) : List Visit :=
  visits.flatMap fun v => v.2.walk arrange v.1

/-- A declaration before what is visited from it on. -/
def before (v : Visit) (below : List Visit) : List Visit := v :: below

/-- A declaration behind what is visited from it on. -/
def behind (v : Visit) (below : List Visit) : List Visit := below ++ [v]

/-- The visits of a profile, each one before those from it on. -/
def preorder (roots : List Declaration) : List Visit := walks before (rootVisits roots)

/-- The visits of a profile, each one behind those from it on. -/
def postorder (roots : List Declaration) : List Visit := walks behind (rootVisits roots)

section
variable {arrange : Visit → List Visit → List Visit}

lemma walkEach_eq (path : Trail) (k : Nat) (ds : List Declaration) :
    Declaration.walkEach arrange path k ds =
    (placed path k ds).map fun v => (v, v.2.walk arrange v.1) := by
  induction ds generalizing k with
  | nil => rfl
  | cons d ds ih => rw [Declaration.walkEach, ih, placed, List.map_cons]

theorem walk_eq (path : Trail) (d : Declaration) :
    d.walk arrange path = arrange (path, d) (walks arrange (nextVisits path d)) := by
  obtain ⟨f, children⟩ := d
  rw [Declaration.walk, walkEach_eq, Siblings.byName_map]
  congr 1
  rw [walks, nextVisits, List.flatMap_map, List.flatMap_assoc]
  refine List.flatMap_congr fun g _ => ?_
  rw [nextOf, Siblings.map_first]
  split
  · rfl
  · rw [List.flatMap_singleton]

@[simp] theorem walks_nil : walks arrange [] = [] := rfl

@[simp] theorem walks_append (xs ys : List Visit) :
    walks arrange (xs ++ ys) = walks arrange xs ++ walks arrange ys := List.flatMap_append

/-! ## What is visited -/

theorem mem_walks {visits : List Visit} {u : Visit} :
    u ∈ walks arrange visits ↔ ∃ v ∈ visits, u ∈ v.2.walk arrange v.1 := List.mem_flatMap

theorem mem_nextVisits {path : Trail} {d : Declaration} {v : Visit} : v ∈ nextVisits path d ↔
    ∃ g ∈ placedGroups path d.children, v = g.first ∧ v.2.children ≠ [] := by
  simp only [nextVisits, List.mem_flatMap, nextOf]
  refine exists_congr fun g => and_congr_right fun _ => ?_
  split
  · rename_i hnil
    simp only [List.not_mem_nil, false_iff, not_and, not_not]
    rintro rfl
    simpa using hnil
  · rename_i hne
    rw [List.mem_singleton]
    refine ⟨?_, And.left⟩
    rintro rfl
    exact ⟨rfl, by simpa using hne⟩

lemma placed_of_mem_nextVisits {path : Trail} {d : Declaration} {v : Visit}
    (h : v ∈ nextVisits path d) :
    v ∈ placed path 0 d.children := by
  obtain ⟨g, hg, rfl, -⟩ := mem_nextVisits.mp h
  exact Siblings.first_mem hg

lemma leads_of_mem_nextVisits {path : Trail} {d : Declaration} {v : Visit}
    (h : v ∈ nextVisits path d) :
    d.Leads v.2 := by
  obtain ⟨g, hg, rfl, -⟩ := mem_nextVisits.mp h
  have hgroup : g.map Prod.snd ∈ d.groups := placedGroups_snd path d ▸ List.mem_map_of_mem hg
  exact .here hgroup

/-- The first of a group is visited, if there are elements in it. -/
lemma exists_nextVisit (path : Trail) {d : Declaration} {g : Siblings Declaration}
    (hg : g ∈ d.groups) (hne : g.first.children ≠ []) : ∃ v ∈ nextVisits path d, v.2 = g.first := by
  rw [← placedGroups_snd path d] at hg
  obtain ⟨k, hk, rfl⟩ := List.mem_map.mp hg
  exact ⟨k.first, mem_nextVisits.mpr ⟨k, hk, rfl, hne⟩, rfl⟩

/-- An order of visits leaves none of them out and adds none. -/
def Arranges (arrange : Visit → List Visit → List Visit) : Prop :=
  ∀ v below u, u ∈ arrange v below ↔ u = v ∨ u ∈ below

theorem arranges_before : Arranges before := fun _ _ _ => List.mem_cons

theorem arranges_behind : Arranges behind := fun v below u => by
  rw [behind, List.mem_append, List.mem_singleton, or_comm]

lemma mem_walk_self (harrange : Arranges arrange) (path : Trail) (d : Declaration) :
    (path, d) ∈ d.walk arrange path := by
  rw [walk_eq, harrange]
  exact .inl rfl

lemma subset_walks (harrange : Arranges arrange) (visits : List Visit) :
    visits ⊆ walks arrange visits :=
  fun v hv => mem_walks.mpr ⟨v, hv, mem_walk_self harrange v.1 v.2⟩

/-- What holds of a declaration, and of those in it that are visited if it holds of the declaration,
holds of all visits from there on. -/
theorem walk_induction (harrange : Arranges arrange) {P : Visit → Prop}
    (hstep : ∀ v, P v → ∀ w ∈ nextVisits v.1 v.2, P w) :
    ∀ (d : Declaration) (path : Trail), P (path, d) →
      ∀ u ∈ d.walk arrange path, P u := by
  intro d
  induction d using Declaration.induction with
  | h f children ih =>
    intro path hd u hu
    rw [walk_eq, harrange] at hu
    obtain rfl | hu := hu
    · exact hd
    obtain ⟨v, hv, hu⟩ := mem_walks.mp hu
    have hchild := mem_of_mem_placed (placed_of_mem_nextVisits hv)
    exact ih v.2 hchild v.1 (hstep _ hd v hv) u hu

theorem mem_walk_of_mem_nextVisits (harrange : Arranges arrange) {v w : Visit}
    (hw : w ∈ nextVisits v.1 v.2) :
    ∀ (d : Declaration) (path : Trail), v ∈ d.walk arrange path → w ∈ d.walk arrange path := by
  intro d
  induction d using Declaration.induction with
  | h f children ih =>
    intro path hv
    rw [walk_eq, harrange] at hv ⊢
    obtain rfl | hv := hv
    · exact .inr (subset_walks harrange _ hw)
    · obtain ⟨u, hu, hv⟩ := mem_walks.mp hv
      have hbelow := ih _ (mem_of_mem_placed (placed_of_mem_nextVisits hu)) u.1 hv
      exact .inr (mem_walks.mpr ⟨u, hu, hbelow⟩)

/-- A visit begins a walk, or follows right after another one. -/
theorem follows_of_mem_walk (harrange : Arranges arrange) {path : Trail}
    {d : Declaration} {v : Visit} (h : v ∈ d.walk arrange path) :
    v = (path, d) ∨ ∃ u ∈ d.walk arrange path, v ∈ nextVisits u.1 u.2 := by
  refine (walk_induction harrange (P := fun v => v ∈ d.walk arrange path ∧
    (v = (path, d) ∨ ∃ u ∈ d.walk arrange path, v ∈ nextVisits u.1 u.2))
    (fun u hu w hw => ?_) d path
    ⟨mem_walk_self harrange path d, .inl rfl⟩ v h).2
  exact ⟨mem_walk_of_mem_nextVisits harrange hw d path hu.1, .inr ⟨u, hu.1, hw⟩⟩

/-- Both orders are of the same visits. -/
theorem mem_walk_congr {arrange' : Visit → List Visit → List Visit} (h : Arranges arrange)
    (h' : Arranges arrange') (u : Visit) : ∀ (d : Declaration) (path : Trail),
      u ∈ d.walk arrange path ↔ u ∈ d.walk arrange' path := by
  intro d
  induction d using Declaration.induction with
  | h f children ih =>
    intro path
    rw [walk_eq, walk_eq, h, h', mem_walks, mem_walks]
    refine or_congr_right (exists_congr fun v => and_congr_right fun hv => ?_)
    exact ih v.2 (mem_of_mem_placed (placed_of_mem_nextVisits hv)) v.1

/-- What is visited after a declaration leads on from it and has elements in it. -/
theorem leads_of_mem_walk (harrange : Arranges arrange) {path : Trail} {d : Declaration} {u : Visit}
    (h : u ∈ d.walk arrange path) : u = (path, d) ∨ d.Leads u.2 ∧ u.2.children ≠ [] := by
  refine walk_induction harrange (P := fun u => u = (path, d) ∨ d.Leads u.2 ∧ u.2.children ≠ [])
    (fun v hv w hw => .inr ?_) d path (.inl rfl) u h
  have hlead := leads_of_mem_nextVisits hw
  obtain ⟨g, -, rfl, hne⟩ := mem_nextVisits.mp hw
  obtain rfl | ⟨hv, -⟩ := hv
  · exact ⟨hlead, hne⟩
  · exact ⟨hv.trans hlead, hne⟩

theorem at_of_mem_walk {F : Forest} (harrange : Arranges arrange) {path : Trail} {d : Declaration}
    (hd : F.at? path = some d) {u : Visit} (h : u ∈ d.walk arrange path) : F.at? u.1 = some u.2 :=
  walk_induction harrange (P := fun u => F.at? u.1 = some u.2)
    (fun _ hv _ hw => Forest.at_of_mem_placed hv (placed_of_mem_nextVisits hw)) d path hd u h

/-! ## No place is visited twice -/

lemma prefix_of_mem_walk (harrange : Arranges arrange) {path : Trail} {d : Declaration} {u : Visit}
    (h : u ∈ d.walk arrange path) : path <+: u.1 := by
  refine walk_induction harrange (P := fun u => path <+: u.1) (fun v hv w hw => ?_) d path
    (List.prefix_refl path) u h
  obtain ⟨i, -, hi⟩ := getElem_of_mem_placed (placed_of_mem_nextVisits hw)
  rw [hi]
  exact hv.trans (List.prefix_append _ _)

/-- The first declarations of different names stand at different places. -/
lemma nodup_trails_firsts (path : Trail) (ds : List Declaration) :
    (((placedGroups path ds).map Siblings.first).map Prod.fst).Nodup := by
  have hnames := Siblings.nodup_names_byName (·.2.name) (placed path 0 ds)
  rw [List.map_map]
  rw [List.Nodup, List.pairwise_map] at hnames ⊢
  refine hnames.imp_of_mem fun {g k} hg hk hname htrail => hname ?_
  obtain ⟨i, hi, hig⟩ := getElem_of_mem_placed (Siblings.first_mem hg)
  obtain ⟨j, hj, hjk⟩ := getElem_of_mem_placed (Siblings.first_mem hk)
  have hij : i = j := by simpa [hig, hjk] using htrail
  have hsame : g.first.2 = k.first.2 := by
    rw [hij, hj] at hi
    exact (Option.some.inj hi).symm
  rw [← Siblings.name_first hg, ← Siblings.name_first hk, hsame]

lemma place_of_mem_groups {path : Trail} {ds : List Declaration} {g : Siblings Visit}
    (hg : g ∈ placedGroups path ds) : ∃ i, g.first.1 = path ++ [i] := by
  obtain ⟨i, -, hi⟩ := getElem_of_mem_placed (Siblings.first_mem hg)
  exact ⟨0 + i, hi⟩

lemma nodup_walks {path : Trail} {visits : List Visit}
    (hplace : ∀ v ∈ visits, ∃ i, v.1 = path ++ [i]) (hnodup : (visits.map Prod.fst).Nodup)
    (hwalk : ∀ v ∈ visits, ((v.2.walk before v.1).map Prod.fst).Nodup) :
    ((walks before visits).map Prod.fst).Nodup := by
  induction visits with
  | nil => exact List.nodup_nil
  | cons v visits ih =>
    obtain ⟨hv, hnodup⟩ := List.nodup_cons.mp hnodup
    have hrest := ih (fun w hw => hplace w (by simp [hw])) hnodup fun w hw => hwalk w (by simp [hw])
    rw [walks, List.flatMap_cons, List.map_append]
    refine List.nodup_append.mpr ⟨hwalk v (by simp), hrest,
      fun trail htrail trail' htrail' heq => ?_⟩
    -- A common trail would begin with two places side by side.
    obtain ⟨u, hu, rfl⟩ := List.mem_map.mp htrail
    obtain ⟨u', hu', rfl⟩ := List.mem_map.mp htrail'
    obtain ⟨w, hw, hu'⟩ := mem_walks.mp hu'
    have hbegin := prefix_of_mem_walk arranges_before hu
    have hbegin' := prefix_of_mem_walk arranges_before hu'
    obtain ⟨i, hi⟩ := hplace v (by simp)
    obtain ⟨j, hj⟩ := hplace w (by simp [hw])
    have hsame : v.1 = w.1 :=
      (List.prefix_of_prefix_length_le hbegin (heq ▸ hbegin') (by simp [hi, hj])).eq_of_length
        (by simp [hi, hj])
    exact hv (hsame ▸ List.mem_map_of_mem hw)

lemma nextVisits_sublist (path : Trail) (d : Declaration) :
    (nextVisits path d).Sublist ((placedGroups path d.children).map Siblings.first) := by
  rw [nextVisits]
  induction placedGroups path d.children with
  | nil => exact List.Sublist.refl _
  | cons g gs ih =>
    rw [List.flatMap_cons, List.map_cons, ← List.singleton_append]
    refine List.Sublist.append ?_ ih
    rw [nextOf]
    split
    · exact List.nil_sublist _
    · exact List.Sublist.refl _

theorem nodup_walk :
    ∀ (d : Declaration) (path : Trail), ((d.walk before path).map Prod.fst).Nodup := by
  intro d
  induction d using Declaration.induction with
  | h f children ih =>
    intro path
    rw [walk_eq, before, List.map_cons, List.nodup_cons]
    have hplace : ∀ v ∈ nextVisits path (.mk f children), ∃ i, v.1 = path ++ [i] := fun v hv => by
      obtain ⟨g, hg, rfl, -⟩ := mem_nextVisits.mp hv
      exact place_of_mem_groups hg
    constructor
    · intro hmem
      obtain ⟨u, hu, hpath⟩ := List.mem_map.mp hmem
      obtain ⟨v, hv, hu⟩ := mem_walks.mp hu
      obtain ⟨i, hi⟩ := hplace v hv
      have hlength := (prefix_of_mem_walk arranges_before hu).length_le
      simp only [hpath, hi, List.length_append, List.length_singleton] at hlength
      omega
    · have hfirsts := nodup_trails_firsts path children
      refine nodup_walks hplace
        (hfirsts.sublist ((nextVisits_sublist path (.mk f children)).map _)) ?_
      exact fun v hv => ih v.2 (mem_of_mem_placed (placed_of_mem_nextVisits hv)) v.1

/-- No place is visited twice. -/
theorem nodup_preorder (roots : List Declaration) : ((preorder roots).map Prod.fst).Nodup := by
  have hplace : ∀ v ∈ rootVisits roots, ∃ i, v.1 = [] ++ [i] := fun v hv => by
    obtain ⟨g, hg, rfl⟩ := List.mem_map.mp hv
    exact place_of_mem_groups hg
  exact nodup_walks hplace (nodup_trails_firsts [] roots) fun v _ => nodup_walk v.2 v.1

/-- Every declaration that is visited stands somewhere. -/
theorem at_of_mem_preorder {roots : List Declaration} {u : Visit} (h : u ∈ preorder roots) :
    (Forest.ofRoots roots).at? u.1 = some u.2 := by
  obtain ⟨v, hv, hu⟩ := mem_walks.mp h
  obtain ⟨g, hg, rfl⟩ := List.mem_map.mp hv
  exact at_of_mem_walk arranges_before (Forest.at_ofRoots_of_mem_placed (Siblings.first_mem hg)) hu

end
end SchemaLoom.Profile
