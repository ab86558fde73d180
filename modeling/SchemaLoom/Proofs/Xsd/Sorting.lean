import Mathlib.Data.String.Basic
import SchemaLoom.Proofs.Profile.Partition
import SchemaLoom.Proofs.Xsd.Rearrangement

/-! Sorting the entries of a canonical text by all of their fields. Not every two upper ends have an
order, so that such a sort may fail; but an entry stands for a group, groups differ in their names,
and names decide before anything else is looked at. -/
namespace SchemaLoom

/-- Whether one upper end comes before another one. A number and the word for no limit have no
order. -/
def Profile.Bound.before? : Bound → Bound → Option Bool
  | .finite a, .finite b => some (decide (a < b))
  | .unbounded, .unbounded => some false
  | _, _ => none

namespace Xsd
open Profile (Declaration Facts Siblings Trail nameOf elementTag)
open Xml (Node)
open Json (Value)

namespace Entry

/-- Whether one entry comes before another one: the first fields in which they differ decide. -/
def before? (a b : Entry) : Option Bool :=
  if a.name ≠ b.name then some (decide (a.name < b.name))
  else if a.range.lower ≠ b.range.lower then some (decide (a.range.lower < b.range.lower))
  else if a.range.upper ≠ b.range.upper then a.range.upper.before? b.range.upper
  else some (decide (a.digest < b.digest))

/-- Puts an entry in its place among sorted ones, unless it has no order with one that it is
compared to. -/
def insert? (e : Entry) : List Entry → Option (List Entry)
  | [] => some [e]
  | x :: rest =>
    match e.before? x with
    | none => none
    | some true => some (e :: x :: rest)
    | some false => (insert? e rest).map (x :: ·)

/-- Sorts entries by inserting one after another. -/
def sort? (entries : List Entry) : Option (List Entry) :=
  entries.foldlM (fun sorted e => insert? e sorted) []

/-- Entries are in the order of their names, which are all different. -/
abbrev InOrder (entries : List Entry) : Prop := entries.Pairwise fun a b => a.name < b.name

/-- The names of two entries decide which one comes first. -/
structure ApartByName (a b : Entry) : Prop where
  before : a.before? b = some (decide (a.name < b.name))
  behind : b.before? a = some (decide (b.name < a.name))

/-- Of these entries every two are put in order by their names alone, and sorting them succeeds with
the one list of them that is in order, however they are arranged before. -/
structure SortedByName (entries : List Entry) : Prop where
  apart : entries.Pairwise ApartByName
  sorts : ∃ sorted, sorted.Perm entries ∧ InOrder sorted ∧ ∀ es, es.Perm entries →
    sort? es = some sorted

variable {a b e : Entry} {entries sorted : List Entry}

lemma apartByName_of_ne (h : a.name ≠ b.name) : a.ApartByName b where
  before := if_pos h
  behind := if_pos h.symm

/-- Entries of one name may have no order. -/
example : before? ⟨"pin", ⟨1, .unbounded⟩, "04"⟩ ⟨"pin", ⟨1, .finite 2⟩, "04"⟩ = none := by decide

/-- Inserting an entry of a new name keeps the order. -/
lemma insert_of_new (hnew : ∀ x ∈ sorted, e.name ≠ x.name) (horder : InOrder sorted) :
    ∃ longer, insert? e sorted = some longer ∧ longer.Perm (e :: sorted) ∧ InOrder longer := by
  induction sorted with
  | nil => exact ⟨[e], rfl, .refl _, List.pairwise_singleton _ _⟩
  | cons x rest ih =>
    obtain ⟨hx, hrest⟩ := List.forall_mem_cons.mp hnew
    obtain ⟨hfirst, horder'⟩ := List.pairwise_cons.mp horder
    have hbefore : e.before? x = some (decide (e.name < x.name)) := (apartByName_of_ne hx).before
    by_cases hlt : e.name < x.name
    · refine ⟨e :: x :: rest, by simp [insert?, hbefore, hlt], .refl _,
        List.pairwise_cons.mpr ⟨?_, horder⟩⟩
      intro y hy
      obtain rfl | hy := List.mem_cons.mp hy
      · exact hlt
      · exact lt_trans hlt (hfirst y hy)
    · obtain ⟨longer, hinsert, hperm, hlonger⟩ := ih hrest horder'
      refine ⟨x :: longer, by simp [insert?, hbefore, hlt, hinsert], ?_,
        List.pairwise_cons.mpr ⟨?_, hlonger⟩⟩
      · exact (hperm.cons x).trans (.swap e x rest)
      · intro y hy
        obtain rfl | hy := List.mem_cons.mp (hperm.mem_iff.mp hy)
        · exact lt_of_le_of_ne (not_lt.mp hlt) hx.symm
        · exact hfirst y hy

/-- Inserting entries of different new names one after another succeeds, and keeps the order. -/
lemma foldlM_insert (hdistinct : ((sorted ++ entries).map Entry.name).Nodup)
    (horder : InOrder sorted) :
    ∃ longer, entries.foldlM (fun sorted e => insert? e sorted) sorted = some longer ∧
      longer.Perm (sorted ++ entries) ∧ InOrder longer := by
  induction entries generalizing sorted with
  | nil => exact ⟨sorted, rfl, by rw [List.append_nil], horder⟩
  | cons e rest ih =>
    -- The entry that comes next is taken in front, where its name is seen to be new.
    have hmiddle : (sorted ++ e :: rest).Perm (e :: sorted ++ rest) := List.perm_middle
    have hmoved := (hmiddle.map Entry.name).nodup_iff.mp hdistinct
    have hnew : ∀ x ∈ sorted, e.name ≠ x.name := by
      intro x hx heq
      refine (List.nodup_cons.mp hmoved).1 ?_
      rw [heq]
      exact List.mem_map_of_mem (List.mem_append_left _ hx)
    obtain ⟨next, hinsert, hnext, hnextOrder⟩ := insert_of_new hnew horder
    have hperm : (next ++ rest).Perm (e :: sorted ++ rest) := hnext.append_right rest
    obtain ⟨longer, hrun, hlonger, hlongerOrder⟩ :=
      ih ((hperm.map Entry.name).nodup_iff.mpr hmoved) hnextOrder
    refine ⟨longer, ?_, (hlonger.trans hperm).trans hmiddle.symm, hlongerOrder⟩
    rw [List.foldlM_cons, hinsert]
    exact hrun

lemma exists_sort (hdistinct : (entries.map Entry.name).Nodup) :
    ∃ sorted, sort? entries = some sorted ∧ sorted.Perm entries ∧ InOrder sorted := by
  rw [← List.nil_append entries] at hdistinct
  exact foldlM_insert hdistinct .nil

/-- There is one order of entries only in which their names ascend. -/
lemma InOrder.unique {sorted' : List Entry} (h : InOrder sorted) (h' : InOrder sorted')
    (hperm : sorted.Perm sorted') : sorted = sorted' :=
  List.Perm.eq_of_pairwise (fun _ _ _ _ hab hba => absurd hba (lt_asymm hab)) h h' hperm

/-- Entries of different names are sorted by them. -/
theorem sortedByName_of_nodup (hdistinct : (entries.map Entry.name).Nodup) :
    SortedByName entries where
  apart := (List.pairwise_map.mp hdistinct).imp apartByName_of_ne
  sorts := by
    obtain ⟨sorted, -, hperm, horder⟩ := exists_sort hdistinct
    refine ⟨sorted, hperm, horder, fun es hes => ?_⟩
    obtain ⟨sorted', hsort, hperm', horder'⟩ :=
      exists_sort ((hes.map Entry.name).nodup_iff.mpr hdistinct)
    rw [hsort, horder'.unique horder (hperm'.trans (hes.trans hperm.symm))]

/-- The sort that looks at all fields of entries of different names comes to the same as that by
names alone. -/
theorem sort_eq_mergeSort (hdistinct : (entries.map Entry.name).Nodup) :
    sort? entries = some (entries.mergeSort fun a b => decide (a.name ≤ b.name)) := by
  obtain ⟨sorted, hsort, hperm, horder⟩ := exists_sort hdistinct
  have hmerged : (entries.mergeSort fun a b => decide (a.name ≤ b.name)).Pairwise
      fun a b => decide (a.name ≤ b.name) = true :=
    List.pairwise_mergeSort
      (fun a b c hab hbc => by simpa using le_trans (of_decide_eq_true hab) (of_decide_eq_true hbc))
      (fun a b => by simpa using le_total a.name b.name) entries
  have hsorted : sorted.Pairwise fun a b => decide (a.name ≤ b.name) = true :=
    horder.imp fun h => decide_eq_true h.le
  rw [hsort, Option.some.injEq]
  refine List.Perm.eq_of_pairwise (fun a b ha hb hab hba => ?_) hsorted hmerged
    (hperm.trans (List.mergeSort_perm entries _).symm)
  have hname : a.name = b.name := le_antisymm (of_decide_eq_true hab) (of_decide_eq_true hba)
  exact List.inj_on_of_nodup_map hdistinct (hperm.mem_iff.mp ha) (List.mem_mergeSort.mp hb) hname

end Entry

/-! ## Digests by such a sort -/

/-- A canonical text as a value, with its elements listed as they were sorted. -/
def relisted (sorted : List Entry) : Value → Value
  | .object members => .object (Json.setMember members "children" (.array (sorted.map entryValue)))
  | v => v

/-- The digest of a declaration at a place, as `digestOf` has it, but with the entries sorted by all
of their fields. What is done where two of them have no order is left open. -/
def digestBySorting (unordered : Compiling String) (s : Settings) (path : Trail) (f : Facts)
    (children : List Subject) : Compiling String := do
  match (← get).digests.lookup path with
  | some digest => return digest
  | none =>
    let gs := groups children
    mergeAll s gs
    tell (.facetsRead path)
    readAttributes path f
    let entries ← gs.mapM entryOf
    match Entry.sort? entries with
    | none => unordered
    | some sorted =>
      let digest := s.digest (relisted sorted (signatureValue (!s.shareAcrossNames) f entries)).line
      modify fun c => { c with digests := (path, digest) :: c.digests }
      return digest

/-- An entry has the name and the range of a group. -/
structure Entry.TellsOf (g : Siblings Subject) (e : Entry) : Prop where
  name : e.name = g.name
  range : e.range = rangeOf g

section
variable {s : Settings} {gs : List (Siblings Subject)} {c c' : Context} {entries : List Entry}

lemma relisted_signatureValue (withName : Bool) (f : Facts) (entries : List Entry) :
    relisted (entries.mergeSort fun a b => decide (a.name ≤ b.name))
    (signatureValue withName f entries) =
      signatureValue withName f entries := by
  cases withName <;> simp [relisted, signatureValue, Json.setMember]

/-- Any step is allowed. -/
def anyhow : Discipline where
  holds _ := True
  moves _ _ := True
  refl _ := trivial
  trans _ _ := trivial

/-- In whatever state they are computed, entries tell of their groups. -/
lemma entries_of_run (h : (gs.mapM entryOf).run c = (.ok entries, c')) :
    List.Forall₂ (fun g e => e.TellsOf g) gs entries := by
  have hdigest (g : Siblings Subject) : Yields anyhow g.first.digest fun _ => True := fun _ _ =>
    ⟨trivial, trivial, fun _ _ => trivial, fun _ _ => trivial⟩
  have hall : Yields anyhow (gs.mapM entryOf) (List.Forall₂ (fun g e => e.TellsOf g) gs) :=
    .mapM fun g _ => (hdigest g).bind fun _ _ => .pure ⟨rfl, rfl⟩
  exact (hall c trivial).ok entries (congrArg Prod.fst h)

lemma names_of_run (h : (gs.mapM entryOf).run c = (.ok entries, c')) :
    entries.map Entry.name = gs.map Siblings.name :=
  map_eq_map_of_forall₂ ((entries_of_run h).imp fun _ _ he => he.name)

/-- What is done with entries counts for those only that have the names of their groups. -/
lemma mapM_entryOf_bind_congr {α : Type} {k k' : List Entry → Compiling α}
    (h : ∀ entries, entries.map Entry.name = gs.map Siblings.name → k entries = k' entries) :
    gs.mapM entryOf >>= k = gs.mapM entryOf >>= k' := by
  refine funext fun c => ?_
  change (gs.mapM entryOf >>= k).run c = (gs.mapM entryOf >>= k').run c
  rw [run_bind, run_bind]
  rcases hrun : (gs.mapM entryOf).run c with ⟨e | entries, c'⟩
  · rfl
  · exact congrArg (fun m => m.run c') (h entries (names_of_run hrun))

lemma nodup_names_of_groups {children : List Subject}
    (h : entries.map Entry.name = (groups children).map Siblings.name) :
    (entries.map Entry.name).Nodup := by
  rw [h]
  exact Siblings.nodup_names_byName _ _

/-- The entries of a declaration never lack an order: whatever would be done then, the digest is the
same. -/
theorem digestBySorting_eq (unordered : Compiling String) (s : Settings) (path : Trail) (f : Facts)
    (children : List Subject) : digestBySorting unordered s path f children =
    digestOf s path f children := by
  unfold digestBySorting digestOf
  refine bind_congr fun c => ?_
  cases c.digests.lookup path with
  | some digest => rfl
  | none =>
    refine bind_congr fun _ => bind_congr fun _ => bind_congr fun _ => ?_
    -- From here on entries count, and they have the names of groups whatever their digests are.
    refine mapM_entryOf_bind_congr fun entries hnames => ?_
    rw [Entry.sort_eq_mergeSort (nodup_names_of_groups hnames)]
    dsimp only
    rw [relisted_signatureValue]
    rfl

/-- Declarations in another order have the same entries in another order, as long as the first one
of each name has the digest that the first one had before. -/
lemma perm_entries {ds ds' : List Declaration} (hperm : ds'.Perm ds)
    (hfirst : ∀ g ∈ Siblings.byName Declaration.name ds, ∀ k ∈ Siblings.byName Declaration.name ds',
      g.name = k.name → s.fingerprint g.first = s.fingerprint k.first) :
      (s.entries ds').Perm (s.entries ds) := by
  have hmem : ∀ d, d ∈ ds ↔ d ∈ ds' := fun d => hperm.mem_iff.symm
  have hnodup (ds : List Declaration) : (s.entries ds).Nodup := .of_map _ (s.nodup_entry_names ds)
  refine (List.perm_ext_iff_of_nodup (hnodup ds') (hnodup ds)).mpr fun e => ?_
  simp only [Settings.entries, List.mem_map]
  constructor
  · rintro ⟨k, hk, rfl⟩
    obtain ⟨g, hg, hname, -⟩ := Siblings.exists_mem_members Declaration.name
      ((hmem _).mpr (Siblings.first_mem hk))
    rw [Siblings.name_first hk] at hname
    exact ⟨g, hg, entry_eq_of_same_members hmem hg hk hname (hfirst g hg k hk hname)⟩
  · rintro ⟨g, hg, rfl⟩
    obtain ⟨k, hk, hname, -⟩ := Siblings.exists_mem_members Declaration.name
      ((hmem _).mp (Siblings.first_mem hg))
    rw [Siblings.name_first hg] at hname
    exact ⟨k, hk,
      (entry_eq_of_same_members hmem hg hk hname.symm (hfirst g hg k hk hname.symm)).symm⟩

/-! ## Groups of elements -/

/-- Groups, as the compiler meets them, of some elements: each has the name of all that is in it,
and none has the name of another one. -/
structure GroupedBy (nodes : List Node) (gs : List (Siblings Subject)) : Prop where
  elements : gs.map (Siblings.map Subject.declaration) =
    (Siblings.byName nameOf nodes).map (Siblings.map Declaration.ofNode)
  distinct : (gs.map Siblings.name).Nodup
  named : ∀ g ∈ gs, ∀ m ∈ g.members, m.name = g.name

/-- The elements in an element, as the compiler meets them. -/
def subjectsBelow (s : Settings) (path : Trail) (n : Node) : List Subject :=
  Subject.ofAll s path 0 (Declaration.ofNode n).children

lemma groupedBy_subjectsBelow (s : Settings) (path : Trail) (n : Node) :
    GroupedBy (n.childrenNamed elementTag) (groups (subjectsBelow s path n)) where
  elements := by
    rw [groups_map, subjectsBelow, Subject.declaration_ofAll, ← Profile.groups_ofNode]
    rfl
  distinct := Siblings.nodup_names_byName _ _
  named _ hg _ hm := Siblings.name_eq_of_mem_members hg hm

lemma digest_subject (s : Settings) (path : Trail) (n : Node) :
    (Subject.of s path (.ofNode n)).digest =
    digestOf s path (.ofNode n) (subjectsBelow s path n) := by
  rw [subjectsBelow, ← Profile.facts_ofNode]
  cases Declaration.ofNode n
  rfl

lemma nameOf_eq_empty {n : Node} :
    nameOf n = "" ↔ n.attribute? "name" = none ∨ n.attribute? "name" = some "" := by
  unfold nameOf
  cases n.attribute? "name" <;> simp

/-- Going through elements once, each joining the group of its name, gives a stable partition of
them, in which a name that is missing is an empty one. So the groups below an element have different
names; these alone put every two of their entries in order, in whatever state the entries are
computed, and sorting them by all of their fields gives the one list in which the names ascend,
however the groups are arranged. Such a sort never compares a number with the word for no limit: the
digest that is made with it is the digest, whatever would be done if it did. Nor does the order of
the elements themselves count for the sorted list, as long as the first one of each name has the
digest that the first one had before. -/
theorem grouped_and_sorted_by_name (nodes : List Node) (n : Node) (s : Settings) (path : Trail) :
    nodes.foldl (Siblings.join nameOf) [] = Siblings.byName nameOf nodes ∧
    Siblings.IsPartition nameOf nodes (Siblings.byName nameOf nodes) ∧
    (∀ m : Node, nameOf m = "" ↔ m.attribute? "name" = none ∨ m.attribute? "name" = some "") ∧
    GroupedBy (n.childrenNamed elementTag) (groups (subjectsBelow s path n)) ∧
    (∀ c entries c', ((groups (subjectsBelow s path n)).mapM entryOf).run c = (.ok entries, c') →
      List.Forall₂ (fun g e => e.TellsOf g) (groups (subjectsBelow s path n)) entries ∧
        Entry.SortedByName entries) ∧
    (∀ unordered : Compiling String, (Subject.of s path (.ofNode n)).digest =
      digestBySorting unordered s path (.ofNode n) (subjectsBelow s path n)) ∧
    ∀ ds : List Declaration, ds.Perm (Declaration.ofNode n).children →
      (∀ g ∈ (Declaration.ofNode n).groups, ∀ k ∈ Siblings.byName Declaration.name ds,
        g.name = k.name → s.fingerprint g.first = s.fingerprint k.first) →
      Entry.sort? (s.entries ds) = Entry.sort? (s.entries (Declaration.ofNode n).children) := by
  refine ⟨Siblings.foldl_join nameOf nodes, Siblings.isPartition_byName nameOf nodes,
    fun _ => nameOf_eq_empty, groupedBy_subjectsBelow s path n, fun c entries c' hrun =>
    ⟨entries_of_run hrun, ?_⟩, fun unordered => ?_,
    fun ds hperm hfirst => ?_⟩
  · exact Entry.sortedByName_of_nodup (nodup_names_of_groups (names_of_run hrun))
  · rw [digestBySorting_eq, digest_subject]
  · have hdistinct : ((s.entries (Declaration.ofNode n).children).map Entry.name).Nodup :=
      s.nodup_entry_names _
    obtain ⟨sorted, -, -, hsort⟩ := (Entry.sortedByName_of_nodup hdistinct).sorts
    rw [hsort _ (perm_entries hperm hfirst), hsort _ (.refl _)]

def pinNode (most : String) : Node :=
  .element (.plain elementTag) [] [⟨.plain "name", "pin"⟩, ⟨.plain "maxOccurs", most⟩] []

/-- A crate with pins, of which some have a limit and some have none, and with elements that have no
name. -/
def crate : Node :=
  .element (.plain elementTag) [] [⟨.plain "name", "crate"⟩]
    [pinNode "unbounded", .element (.plain elementTag) [] [] [], pinNode "2",
      .element (.plain elementTag) [] [⟨.plain "name", ""⟩] []]

/-- The entries below the crate, computed before anything else. -/
def crateEntries : Except Profile.ConversionError (List Entry) × Context :=
  ((groups (subjectsBelow (.standard .permissive true) [] crate)).mapM entryOf).run (.start none)

lemma names_crateEntries : crateEntries.1.toOption.map
    (fun entries => (entries.map fun e => (e.name, e.range),
    (Entry.sort? entries).map (·.map Entry.name))) =
      some ([("pin", ⟨1, .unbounded⟩), ("", ⟨1, .finite 1⟩)], some ["", "pin"]) := by decide +kernel

/-- Both declarations of pins are in one entry, so that their upper ends are never compared. -/
theorem crate_sorted : ∃ entries c, crateEntries = (.ok entries, c) ∧
    (entries.map fun e => (e.name, e.range)) = [("pin", ⟨1, .unbounded⟩), ("", ⟨1, .finite 1⟩)] ∧
    (Entry.sort? entries).map (·.map Entry.name) = some ["", "pin"] ∧
    Entry.SortedByName entries := by
  obtain ⟨entries, hentries, hnames⟩ := Option.map_eq_some_iff.mp names_crateEntries
  obtain ⟨hranges, hsorted⟩ := Prod.mk.inj hnames
  have hrun : crateEntries = (.ok entries, crateEntries.2) :=
    Prod.ext (eq_ok_of_toOption hentries) rfl
  obtain ⟨-, -, -, -, hsorts, -⟩ :=
    grouped_and_sorted_by_name [] crate (.standard .permissive true) []
  exact ⟨entries, _, hrun, hranges, hsorted, (hsorts _ _ _ hrun).2⟩

end
end Xsd
end SchemaLoom
