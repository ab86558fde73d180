import Mathlib.Data.List.Induction
import SchemaLoom.Proofs.Profile.Siblings

/-! Grouping by name goes through a list once: an element joins the group of its name or opens one
behind the others. What comes out is a stable partition of the list. -/
namespace SchemaLoom.Profile

/-- The distinct elements of a list stand in the order in which they first occur. -/
theorem pairwise_firstOccurrences {α : Type} [BEq α] [LawfulBEq α] (xs : List α) :
    (firstOccurrences xs).Pairwise fun a b => xs.idxOf a < xs.idxOf b := by
  induction xs with
  | nil => exact .nil
  | cons c xs ih =>
    have hlater {a : α} (ha : a ≠ c) : (c :: xs).idxOf a = xs.idxOf a + 1 :=
      List.idxOf_cons_ne xs ha.symm
    rw [firstOccurrences, List.pairwise_cons]
    refine ⟨fun a ha => ?_, (ih.filter _).imp_of_mem fun {a b} ha hb hab => ?_⟩
    · have hne : a ≠ c := by simpa using List.of_mem_filter ha
      rw [List.idxOf_cons_self, hlater hne]
      exact Nat.succ_pos _
    · have hac : a ≠ c := by simpa using List.of_mem_filter ha
      have hbc : b ≠ c := by simpa using List.of_mem_filter hb
      rw [hlater hac, hlater hbc]
      exact Nat.succ_lt_succ hab

namespace Siblings

/-- A group with one element more. -/
def snoc {α : Type} (g : Siblings α) (x : α) : Siblings α := { g with others := g.others ++ [x] }

/-- An element joins the group of its name, or opens one behind the others. -/
def join {α : Type} (name : α → String) (gs : List (Siblings α)) (x : α) : List (Siblings α) :=
  if gs.any (·.name == name x) then gs.map fun g => if g.name == name x then g.snoc x else g
  else gs ++ [⟨name x, x, []⟩]

/-- Groups are a stable partition of a list by the names of its elements. -/
structure IsPartition {α : Type} (name : α → String) (xs : List α) (gs : List (Siblings α)) :
    Prop where
  /-- No element is lost and none is there twice. -/
  whole : (gs.flatMap members).Perm xs
  distinct : (gs.map Siblings.name).Nodup
  occurs : ∀ n, n ∈ gs.map Siblings.name ↔ n ∈ xs.map name
  /-- Groups stand in the order in which their names first occur. -/
  inOrder : (gs.map Siblings.name).Pairwise fun n m => (xs.map name).idxOf n < (xs.map name).idxOf m
  /-- In a group are the elements of its name, in their own order. -/
  stable : ∀ g ∈ gs, g.members = xs.filter (name · == g.name)

section
variable {α : Type} {name : α → String}

/-- With one element more at the end of a list, it joins the groups of the list. -/
theorem byName_concat (xs : List α) (x : α) :
    byName name (xs ++ [x]) = join name (byName name xs) x := by
  have hany : (byName name xs).any (·.name == name x) = true ↔ name x ∈ xs.map name := by
    rw [← mem_firstOccurrences, ← names_byName]
    simp
  by_cases hold : name x ∈ xs.map name
  · rw [join, if_pos (hany.mpr hold)]
    have hkeys : firstOccurrences ((xs ++ [x]).map name) = firstOccurrences (xs.map name) := by
      rw [List.map_append, List.map_singleton, firstOccurrences_again hold, List.append_nil]
    -- The keys stay as they are, and no group is empty.
    rw [byName, hkeys, byName, List.map_filterMap]
    refine List.filterMap_congr fun n hn => ?_
    have hne : xs.filter (name · == n) ≠ [] := by
      obtain ⟨y, hy, rfl⟩ := List.mem_map.mp ((mem_firstOccurrences n _).mp hn)
      exact List.ne_nil_of_mem (List.mem_filter.mpr ⟨hy, beq_self_eq_true _⟩)
    obtain ⟨a, rest, hmembers⟩ := List.exists_cons_of_ne_nil hne
    rw [List.filter_append, hmembers]
    by_cases hx : name x = n
    · simp [ofList?, snoc, hx]
    · simp [ofList?, hx, Ne.symm hx]
  · have hsingle : byName name [x] = [⟨name x, x, []⟩] := by
      simp [byName, firstOccurrences, ofList?]
    rw [join, if_neg (mt hany.mp hold), byName_append (by simpa using hold), hsingle]

/-- Going through a list once gives its groups. -/
theorem foldl_join (name : α → String) (xs : List α) :
    xs.foldl (join name) [] = byName name xs := by
  induction xs using List.reverseRecOn with
  | nil => rfl
  | append_singleton xs x ih =>
    rw [List.foldl_append, List.foldl_cons, List.foldl_nil, ih, byName_concat]

/-- Picking out the elements of one name after another gives all of them, if no name comes twice. -/
lemma perm_flatMap_filter {ns : List String} {xs : List α} (hdistinct : ns.Nodup)
    (hall : ∀ x ∈ xs, name x ∈ ns) : (ns.flatMap fun n => xs.filter (name · == n)).Perm xs := by
  induction ns generalizing xs with
  | nil =>
    have hnil : xs = [] := List.eq_nil_iff_forall_not_mem.mpr fun x hx =>
      List.not_mem_nil (hall x hx)
    rw [hnil]
    exact .nil
  | cons n ns ih =>
    obtain ⟨hn, hns⟩ := List.nodup_cons.mp hdistinct
    have hrest : (ns.flatMap fun m => (xs.filter fun x => !(name x == n)).filter (name · == m)) =
        ns.flatMap fun m => xs.filter (name · == m) := by
      refine List.flatMap_congr fun m hm => ?_
      rw [List.filter_filter]
      refine List.filter_congr fun x _ => ?_
      by_cases hx : name x = m
      · have hne : m ≠ n := fun h => hn (h ▸ hm)
        simp [hx, hne]
      · simp [hx]
    have hcovered : ∀ x ∈ xs.filter (fun x => !(name x == n)), name x ∈ ns := by
      intro x hx
      obtain ⟨hx, hne⟩ := List.mem_filter.mp hx
      exact (List.mem_cons.mp (hall x hx)).resolve_left (by simpa using hne)
    rw [List.flatMap_cons, ← hrest]
    exact ((ih hns hcovered).append_left _).trans (List.filter_append_perm _ xs)

/-- Groups by name are a stable partition. -/
theorem isPartition_byName (name : α → String) (xs : List α) :
    IsPartition name xs (byName name xs) where
  whole := by
    have hmembers : (byName name xs).flatMap members =
        ((byName name xs).map Siblings.name).flatMap fun n => xs.filter (name · == n) := by
      rw [List.flatMap_map]
      exact List.flatMap_congr fun g hg => (mem_byName.mp hg).2
    rw [hmembers]
    refine perm_flatMap_filter (nodup_names_byName name xs) fun x hx => ?_
    rw [names_byName, mem_firstOccurrences]
    exact List.mem_map_of_mem hx
  distinct := nodup_names_byName name xs
  occurs n := by rw [names_byName, mem_firstOccurrences]
  inOrder := by
    rw [names_byName]
    exact pairwise_firstOccurrences _
  stable _ hg := (mem_byName.mp hg).2

end
end Siblings
end SchemaLoom.Profile
