import Mathlib.Data.List.Nodup
import Mathlib.Tactic.Lemma
import SchemaLoom.Profile.Siblings

/-! Grouping by name is a stable partition: one group for each name in the order of first
occurrence, and in it all elements of that name in their own order. -/
namespace SchemaLoom.Profile

section
variable {α : Type} [BEq α] [LawfulBEq α]

@[simp] theorem mem_firstOccurrences (a : α) (xs : List α) : a ∈ firstOccurrences xs ↔ a ∈ xs := by
  induction xs with
  | nil => simp [firstOccurrences]
  | cons b xs ih =>
    by_cases h : a = b
    · simp [firstOccurrences, h]
    · simp [firstOccurrences, ih, h]

theorem nodup_firstOccurrences (xs : List α) : (firstOccurrences xs).Nodup := by
  induction xs with
  | nil => exact List.nodup_nil
  | cons b xs ih =>
    rw [firstOccurrences, List.nodup_cons]
    exact ⟨by simp, ih.filter _⟩

theorem firstOccurrences_append (xs ys : List α) : firstOccurrences (xs ++ ys) =
    firstOccurrences xs ++ (firstOccurrences ys).filter (!xs.contains ·) := by
  induction xs with
  | nil => simp [firstOccurrences]
  | cons a xs ih =>
    simp only [List.cons_append, firstOccurrences, ih, List.filter_append, List.filter_filter,
      List.contains_cons, Bool.not_or]
    rfl

/-- What has occurred before does not count when it occurs again. -/
theorem firstOccurrences_again {a : α} {xs : List α} (h : a ∈ xs) (ys : List α) :
    firstOccurrences (xs ++ a :: ys) = firstOccurrences (xs ++ ys) := by
  have hseen : (!xs.contains a) = false := by simpa using h
  rw [firstOccurrences_append, firstOccurrences_append, firstOccurrences,
    List.filter_cons_of_neg (by simp [h]), List.filter_filter]
  congr 1
  refine List.filter_congr fun b _ => ?_
  by_cases hb : b = a
  · subst hb
    rw [hseen, Bool.false_and]
  · simp [hb]

end

namespace Siblings

/-- The same group of other things. -/
def map {α β : Type} (f : α → β) (g : Siblings α) : Siblings β :=
  ⟨g.name, f g.first, g.others.map f⟩

section
variable {α β : Type}

@[simp] theorem map_name (f : α → β) (g : Siblings α) : (g.map f).name = g.name := rfl
@[simp] theorem map_first (f : α → β) (g : Siblings α) : (g.map f).first = f g.first := rfl
@[simp] theorem map_others (f : α → β) (g : Siblings α) : (g.map f).others = g.others.map f := rfl
@[simp] theorem map_members (f : α → β) (g : Siblings α) : (g.map f).members =
    g.members.map f := rfl
@[simp] theorem map_count (f : α → β) (g : Siblings α) :
    (g.map f).count = g.count := by simp [count]

theorem map_map {γ : Type} (f : α → β) (k : β → γ) (g : Siblings α) :
    (g.map f).map k = g.map (k ∘ f) := by simp [map]

@[simp] theorem map_range (f : α → β) (g : Siblings α) (r : β → Range) :
    (g.map f).range r = g.range (r ∘ f) := by simp [range, Function.comp_def]

lemma first_mem_members (g : Siblings α) : g.first ∈ g.members := by simp [members]

lemma ofList_eq_some {name : String} {xs : List α} {g : Siblings α} :
    ofList? name xs = some g ↔ g.name = name ∧ g.members = xs := by
  obtain ⟨n, a, rest⟩ := g
  cases xs with
  | nil => simp [ofList?, members]
  | cons b xs => simp [ofList?, members, eq_comm]

lemma ofList_map (f : α → β) (name : String) (xs : List α) :
    ofList? name (xs.map f) = (ofList? name xs).map (map f) := by
  cases xs <;> rfl

/-- A group holds a name that occurs and all elements of that name, and nothing else is a group. -/
theorem mem_byName {name : α → String} {xs : List α} {g : Siblings α} :
    g ∈ byName name xs ↔ g.name ∈ xs.map name ∧ g.members = xs.filter (name · == g.name) := by
  simp only [byName, List.mem_filterMap, mem_firstOccurrences, ofList_eq_some]
  constructor
  · rintro ⟨n, hn, rfl, hm⟩
    exact ⟨hn, hm⟩
  · rintro ⟨hn, hm⟩
    exact ⟨g.name, hn, rfl, hm⟩

lemma mem_of_mem_members {name : α → String} {xs : List α} {g : Siblings α} {x : α}
    (hg : g ∈ byName name xs) (hx : x ∈ g.members) : x ∈ xs := by
  rw [(mem_byName.mp hg).2] at hx
  exact List.mem_of_mem_filter hx

lemma name_eq_of_mem_members {name : α → String} {xs : List α} {g : Siblings α} {x : α}
    (hg : g ∈ byName name xs) (hx : x ∈ g.members) : name x = g.name := by
  rw [(mem_byName.mp hg).2] at hx
  simpa using List.of_mem_filter hx

lemma first_mem {name : α → String} {xs : List α} {g : Siblings α} (hg : g ∈ byName name xs) :
    g.first ∈ xs := mem_of_mem_members hg g.first_mem_members

lemma name_first {name : α → String} {xs : List α} {g : Siblings α} (hg : g ∈ byName name xs) :
    name g.first = g.name := name_eq_of_mem_members hg g.first_mem_members

/-- The first of a group is the first of its name. -/
lemma find_first {name : α → String} {xs : List α} {g : Siblings α} (hg : g ∈ byName name xs) :
    xs.find? (name · == g.name) = some g.first := by
  have hmembers := (mem_byName.mp hg).2
  rw [← List.head?_filter, ← hmembers]
  rfl

/-- Every element has its group. -/
theorem exists_mem_members (name : α → String) {xs : List α} {x : α} (hx : x ∈ xs) :
    ∃ g ∈ byName name xs, g.name = name x ∧ x ∈ g.members := by
  have hf : x ∈ xs.filter (name · == name x) := by simp [hx]
  obtain ⟨a, rest, he⟩ := List.exists_cons_of_ne_nil (List.ne_nil_of_mem hf)
  refine ⟨⟨name x, a, rest⟩, mem_byName.mpr ⟨List.mem_map_of_mem hx, he.symm⟩, rfl, ?_⟩
  change x ∈ a :: rest
  exact he ▸ hf

/-- The names of the groups are the distinct names in the order of first occurrence. -/
theorem names_byName (name : α → String) (xs : List α) :
    (byName name xs).map Siblings.name = firstOccurrences (xs.map name) := by
  have h : ∀ ns : List String, (∀ n ∈ ns, n ∈ xs.map name) →
      (ns.filterMap fun n => ofList? n (xs.filter (name · == n))).map Siblings.name = ns := by
    intro ns
    induction ns with
    | nil => simp
    | cons n ns ih =>
      intro hn
      obtain ⟨x, hx, rfl⟩ := List.mem_map.mp (hn n (by simp))
      obtain ⟨g, hg, hname, -⟩ := exists_mem_members name hx
      have hof : ofList? (name x) (xs.filter (name · == name x)) = some g :=
        ofList_eq_some.mpr ⟨hname, hname ▸ (mem_byName.mp hg).2⟩
      simp only [List.filterMap_cons, hof, List.map_cons, hname]
      rw [ih fun m hm => hn m (by simp [hm])]
  exact h _ fun n hn => (mem_firstOccurrences n _).mp hn

theorem nodup_names_byName (name : α → String) (xs : List α) :
    ((byName name xs).map Siblings.name).Nodup := by
  rw [names_byName]
  exact nodup_firstOccurrences _

/-- Grouping does not look at more than names. -/
theorem byName_map (f : α → β) (name : β → String) (xs : List α) :
    byName name (xs.map f) = (byName (name ∘ f) xs).map (map f) := by
  simp only [byName, List.map_map, List.filter_map, Function.comp_def, ofList_map,
    List.map_filterMap]

@[simp] theorem byName_eq_nil {name : α → String} {xs : List α} :
    byName name xs = [] ↔ xs = [] := by
  constructor
  · intro h
    by_contra hne
    obtain ⟨x, hx⟩ := List.exists_mem_of_ne_nil xs hne
    obtain ⟨g, hg, -⟩ := exists_mem_members name hx
    simp [h] at hg
  · rintro rfl
    rfl

/-- Lists without a name in common are grouped one after the other. -/
theorem byName_append {name : α → String} {xs ys : List α} (h : ∀ y ∈ ys, name y ∉ xs.map name) :
    byName name (xs ++ ys) = byName name xs ++ byName name ys := by
  have hnew : (firstOccurrences (ys.map name)).filter (!(xs.map name).contains ·) =
      firstOccurrences (ys.map name) := by
    rw [List.filter_eq_self]
    intro n hn
    obtain ⟨y, hy, rfl⟩ := List.mem_map.mp ((mem_firstOccurrences n _).mp hn)
    simpa using h y hy
  unfold byName
  rw [List.map_append, firstOccurrences_append, hnew, List.filterMap_append]
  congr 1
  · refine List.filterMap_congr fun n hn => ?_
    obtain ⟨x, hx, rfl⟩ := List.mem_map.mp ((mem_firstOccurrences n _).mp hn)
    have hnone : ys.filter (name · == name x) = [] := by
      rw [List.filter_eq_nil_iff]
      intro y hy hsame
      exact h y hy (beq_iff_eq.mp hsame ▸ List.mem_map_of_mem hx)
    rw [List.filter_append, hnone, List.append_nil]
  · refine List.filterMap_congr fun n hn => ?_
    obtain ⟨y, hy, rfl⟩ := List.mem_map.mp ((mem_firstOccurrences n _).mp hn)
    have hnone : xs.filter (name · == name y) = [] := by
      rw [List.filter_eq_nil_iff]
      intro x hx hsame
      exact h y hy (beq_iff_eq.mp hsame ▸ List.mem_map_of_mem hx)
    rw [List.filter_append, hnone, List.nil_append]

end
end Siblings
end SchemaLoom.Profile
