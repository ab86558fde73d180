import SchemaLoom.Proofs.Profile.Walk
import SchemaLoom.Proofs.Xsd.Registry

/-! A registry as it is kept along a walk: types come in the order in which their first declarations
are left, and their names are counted in the order in which these are met. -/
namespace SchemaLoom.Xsd
open Profile (Declaration Siblings Forest Visit)

namespace Settings

/-- A visit is the first one of a declaration of its fingerprint. -/
def isFirst (s : Settings) (visits : List Visit) (v : Visit) : Bool :=
  (visits.find? fun u => s.fingerprint u.2 == s.fingerprint v.2).any (·.1 == v.1)

/-- A first visit of a declaration whose type is preferably of a name. -/
def prefers (s : Settings) (visits : List Visit) (base : String) (v : Visit) : Bool :=
  s.isFirst visits v && typeNameBase v.2.name == base

/-- How many fingerprints of the same preferred name are met before a visit. -/
def rank (s : Settings) (visits : List Visit) (v : Visit) : Nat :=
  (visits.takeWhile (·.1 != v.1)).countP (s.prefers visits (typeNameBase v.2.name))

/-- The name of the type of a declaration that is visited: the preferred one, with a number behind
it if it is not the first to prefer it. -/
def typeName (s : Settings) (visits : List Visit) (v : Visit) : String :=
  Registry.numbered (typeNameBase v.2.name) (s.rank visits v)

/-- The digests and names of the types of some visits: one for each that is the first of its
kind. -/
def typesOf (s : Settings) (visits done : List Visit) : List (String × String) :=
  (done.filter (s.isFirst visits)).map fun v => (s.fingerprint v.2, s.typeName visits v)

section
variable {s : Settings} {visits : List Visit} {v : Visit}

lemma find_isSome (h : s.fingerprint v.2 ∈ visits.map (s.fingerprint ·.2)) :
    ∃ u ∈ visits, (visits.find? fun u => s.fingerprint u.2 == s.fingerprint v.2) = some u := by
  obtain ⟨u, hu, hfp⟩ := List.mem_map.mp h
  have hsome : (visits.find? fun u => s.fingerprint u.2 == s.fingerprint v.2).isSome :=
    List.find?_isSome.mpr ⟨u, hu, by simpa using hfp⟩
  obtain ⟨w, hw⟩ := Option.isSome_iff_exists.mp hsome
  exact ⟨w, List.mem_of_find?_eq_some hw, hw⟩

/-- What comes later does not count for what was first before. -/
lemma isFirst_append (h : s.fingerprint v.2 ∈ visits.map (s.fingerprint ·.2)) (later : List Visit) :
    s.isFirst (visits ++ later) v = s.isFirst visits v := by
  obtain ⟨u, -, hu⟩ := find_isSome h
  rw [isFirst, isFirst, List.find?_append, hu, Option.some_or]

lemma isFirst_new (h : s.fingerprint v.2 ∉ visits.map (s.fingerprint ·.2)) :
    s.isFirst (visits ++ [v]) v = true := by
  have hnone : (visits.find? fun u => s.fingerprint u.2 == s.fingerprint v.2) = none := by
    refine List.find?_eq_none.mpr fun u hu hfp => h ?_
    exact List.mem_map.mpr ⟨u, hu, by simpa using hfp⟩
  simp [isFirst, List.find?_append, hnone]

lemma isFirst_again (h : s.fingerprint v.2 ∈ visits.map (s.fingerprint ·.2)) (later : List Visit)
    (htrail : v.1 ∉ visits.map Prod.fst) : s.isFirst (visits ++ later) v = false := by
  obtain ⟨u, humem, hu⟩ := find_isSome h
  rw [isFirst_append h, isFirst, hu, Option.any_some]
  refine beq_eq_false_iff_ne.mpr fun heq => htrail ?_
  exact heq ▸ List.mem_map_of_mem humem

lemma prefers_append {base : String} (h : v ∈ visits) (later : List Visit) :
    s.prefers (visits ++ later) base v = s.prefers visits base v := by
  rw [prefers, isFirst_append (List.mem_map_of_mem h), prefers]

lemma takeWhile_append_of_mem (h : v ∈ visits) (later : List Visit) :
    (visits ++ later).takeWhile (·.1 != v.1) = visits.takeWhile (·.1 != v.1) := by
  induction visits with
  | nil => cases h
  | cons u visits ih =>
    rw [List.cons_append, List.takeWhile_cons, List.takeWhile_cons]
    split
    · rename_i hne
      obtain rfl | h := List.mem_cons.mp h
      · simp at hne
      · rw [ih h]
    · rfl

lemma rank_append (h : v ∈ visits) (later : List Visit) :
    s.rank (visits ++ later) v = s.rank visits v := by
  rw [rank, rank, takeWhile_append_of_mem h]
  refine List.countP_congr fun u hu => ?_
  rw [prefers_append ((List.takeWhile_sublist _).subset hu)]

lemma rank_new (h : v.1 ∉ visits.map Prod.fst) : s.rank (visits ++ [v]) v =
    visits.countP (s.prefers visits (typeNameBase v.2.name)) := by
  have hearlier : (visits ++ [v]).takeWhile (·.1 != v.1) = visits := by
    rw [List.takeWhile_append_of_pos]
    · simp
    · exact fun u hu => bne_iff_ne.mpr fun heq => h (heq ▸ List.mem_map_of_mem hu)
  rw [rank, hearlier]
  exact List.countP_congr fun u hu => by rw [prefers_append hu]

lemma typesOf_append {done : List Visit} (h : done ⊆ visits) (later : List Visit) :
    s.typesOf (visits ++ later) done = s.typesOf visits done := by
  have hfilter : done.filter (s.isFirst (visits ++ later)) = done.filter (s.isFirst visits) :=
    List.filter_congr fun u hu => isFirst_append (List.mem_map_of_mem (h hu)) later
  rw [typesOf, typesOf, hfilter]
  refine List.map_congr_left fun u hu => ?_
  rw [typeName, typeName, rank_append (h (List.mem_of_mem_filter hu))]

lemma typesOf_append_done (done more : List Visit) :
    s.typesOf visits (done ++ more) = s.typesOf visits done ++ s.typesOf visits more := by
  rw [typesOf, List.filter_append, List.map_append]
  rfl

lemma countP_prefers_append (base : String) (later : List Visit) :
    (visits ++ later).countP (s.prefers (visits ++ later) base) =
      visits.countP (s.prefers visits base) + later.countP (s.prefers (visits ++ later) base) := by
  rw [List.countP_append]
  congr 1
  exact List.countP_congr fun u hu => by rw [prefers_append hu]

end
end Settings

def Registry.digests (r : Registry) : List String := r.types.map TypeDefinition.digest

/-- What a registry holds when some visits were made, of which some are done with, and the types of
some fingerprints are being made. -/
structure Ledger (s : Settings) (F : Forest) (visits done : List Visit) (pending : List String)
    (r : Registry) : Prop where
  types : r.types.map (fun t => (t.digest, t.name)) = s.typesOf visits done
  sub : done ⊆ visits
  known : ∀ v ∈ visits, s.fingerprint v.2 ∈ r.digests ∨ s.fingerprint v.2 ∈ pending
  apart : ∀ digest ∈ pending, digest ∉ r.digests
  /-- Of the variants of a name as many are taken as fingerprints were met that prefer it. -/
  counted : ∀ name k, Registry.numbered (typeNameBase name) k ∈ r.usedNames ↔
    k < visits.countP (s.prefers visits (typeNameBase name))
  /-- With a type the types of all that is visited from its declaration on are there. -/
  closed : ∀ a, F.Has a → s.fingerprint a ∈ r.digests → ∀ e, a.Leads e → e.children ≠ [] →
    s.fingerprint e ∈ r.digests

section
variable {s : Settings} {F : Forest} {visits done : List Visit}
  {pending : List String} {r : Registry}

theorem ledger_empty (s : Settings) (F : Forest) : Ledger s F [] [] [] .empty where
  types := rfl
  sub := List.Subset.refl _
  known := by simp
  apart := by simp
  counted := by simp [Registry.empty]
  closed := by simp [Registry.digests, Registry.empty]

namespace Ledger

lemma digests_eq (h : Ledger s F visits done pending r) :
    r.digests = (done.filter (s.isFirst visits)).map (s.fingerprint ·.2) := by
  have hdigests := congrArg (List.map Prod.fst) h.types
  rwa [List.map_map, Settings.typesOf, List.map_map] at hdigests

lemma visited (h : Ledger s F visits done pending r) {digest : String} (hd : digest ∈ r.digests) :
    digest ∈ visits.map (s.fingerprint ·.2) := by
  rw [h.digests_eq] at hd
  obtain ⟨v, hv, rfl⟩ := List.mem_map.mp hd
  exact List.mem_map_of_mem (f := (s.fingerprint ·.2)) (h.sub (List.mem_of_mem_filter hv))

lemma not_visited (h : Ledger s F visits done pending r) {v : Visit}
    (hnew : s.fingerprint v.2 ∉ r.digests) (hout : s.fingerprint v.2 ∉ pending) :
    s.fingerprint v.2 ∉ visits.map (s.fingerprint ·.2) := by
  intro hmem
  obtain ⟨u, hu, hfp⟩ := List.mem_map.mp hmem
  exact (h.known u hu).elim (hfp ▸ hnew) (hfp ▸ hout)

/-- Visits to declarations whose types are there change nothing. -/
theorem skip (h : Ledger s F visits done pending r) {more more' : List Visit} (hsub : more' ⊆ more)
    (hthere : ∀ v ∈ more, s.fingerprint v.2 ∈ r.digests)
    (htrail : ∀ v ∈ more, v.1 ∉ visits.map Prod.fst) :
    Ledger s F (visits ++ more) (done ++ more') pending r := by
  have hagain : ∀ v ∈ more, s.isFirst (visits ++ more) v = false := fun v hv =>
    Settings.isFirst_again (h.visited (hthere v hv)) more (htrail v hv)
  have hnone : s.typesOf (visits ++ more) more' = [] := by
    rw [Settings.typesOf, List.map_eq_nil_iff, List.filter_eq_nil_iff]
    intro v hv
    rw [hagain v (hsub hv)]
    exact Bool.false_ne_true
  have hzero (base : String) : more.countP (s.prefers (visits ++ more) base) = 0 := by
    refine List.countP_eq_zero.mpr fun v hv => ?_
    rw [Settings.prefers, hagain v hv, Bool.false_and]
    exact Bool.false_ne_true
  exact {
    types := by rw [Settings.typesOf_append_done, hnone, List.append_nil,
    Settings.typesOf_append h.sub, h.types]
    sub := List.append_subset.mpr ⟨List.Subset.trans h.sub (List.subset_append_left _ _),
      List.Subset.trans hsub (List.subset_append_right _ _)⟩
    known := fun v hv => (List.mem_append.mp hv).elim (h.known v) fun hv => .inl (hthere v hv)
    apart := h.apart
    counted := fun name k => by rw [Settings.countP_prefers_append, hzero, Nat.add_zero, h.counted]
    closed := h.closed }

/-- A declaration is met whose type is not there: a name is taken for it. -/
theorem enter (h : Ledger s F visits done pending r) {v : Visit}
    (hnew : s.fingerprint v.2 ∉ r.digests) (hout : s.fingerprint v.2 ∉ pending)
    (htrail : v.1 ∉ visits.map Prod.fst) :
    (r.allocate (typeNameBase v.2.name)).1 = s.typeName (visits ++ [v]) v ∧
      Ledger s F (visits ++ [v]) done (s.fingerprint v.2 :: pending)
      (r.allocate (typeNameBase v.2.name)).2 := by
  have htaken : r.TakenTo (fun base => ∃ name, base = typeNameBase name) fun base =>
      visits.countP (s.prefers visits base) := by
    rintro _ ⟨name, rfl⟩
    exact h.counted name
  have hapart : ∀ a b, (∃ name, a = typeNameBase name) → (∃ name, b = typeNameBase name) →
      ¬ExtendsByDigits a b := by
    rintro _ b ⟨name, rfl⟩ -
    exact not_extendsByDigits_typeNameBase name b
  obtain ⟨hgiven, htaken⟩ := htaken.allocate hapart ⟨v.2.name, rfl⟩
  have hname : (r.allocate (typeNameBase v.2.name)).1 = s.typeName (visits ++ [v]) v := by
    rw [hgiven, Settings.typeName, Settings.rank_new htrail]
  have hfirst := Settings.isFirst_new (h.not_visited hnew hout)
  refine ⟨hname,
    { types := ?_, sub := ?_, known := ?_, apart := ?_, counted := ?_, closed := h.closed }⟩
  · rw [Settings.typesOf_append h.sub, ← h.types]
    rfl
  · exact List.Subset.trans h.sub (List.subset_append_left _ _)
  · intro u hu
    obtain hu | hu := List.mem_append.mp hu
    · exact (h.known u hu).imp_right (List.mem_cons_of_mem _)
    · rw [List.mem_singleton.mp hu]
      exact .inr List.mem_cons_self
  · exact List.forall_mem_cons.mpr ⟨hnew, h.apart⟩
  · intro name k
    rw [htaken _ ⟨name, rfl⟩, Settings.countP_prefers_append, List.countP_singleton,
      Settings.prefers, hfirst, Bool.true_and]
    simp only [beq_iff_eq]

/-- A declaration is left: its type is put in. -/
theorem leave {v : Visit} (h : Ledger s F visits done (s.fingerprint v.2 :: pending) r)
    (hv : v ∈ visits) (hfirst : s.isFirst visits v = true) (hout : s.fingerprint v.2 ∉ pending)
    (hbelow : ∀ a, F.Has a → s.fingerprint a = s.fingerprint v.2 → ∀ e, a.Leads e →
    e.children ≠ [] →
      s.fingerprint e ∈ r.digests) (body : TypeBody) :
    Ledger s F visits (done ++ [v]) pending
    (r.register ⟨s.typeName visits v, s.fingerprint v.2, body⟩) := by
  have hnew : r.find? (s.fingerprint v.2) = none := by
    refine Registry.find_eq_none.mpr fun t ht hdigest => h.apart _ List.mem_cons_self ?_
    exact hdigest ▸ List.mem_map_of_mem ht
  rw [Registry.register_of_new hnew]
  set r' : Registry :=
    { r with types := r.types ++ [⟨s.typeName visits v, s.fingerprint v.2, body⟩] }
  have hdigests (digest : String) : digest ∈ r'.digests ↔
      digest ∈ r.digests ∨ digest = s.fingerprint v.2 := by
    change digest ∈ (r.types ++ [_]).map TypeDefinition.digest ↔ _
    rw [List.map_append, List.mem_append, List.map_singleton, List.mem_singleton]
    rfl
  refine { types := ?_, sub := ?_, known := ?_, apart := ?_, counted := h.counted, closed := ?_ }
  · change (r.types ++ [_]).map _ = _
    rw [List.map_append, h.types, Settings.typesOf_append_done, Settings.typesOf, Settings.typesOf,
      List.filter_cons_of_pos hfirst]
    rfl
  · exact List.append_subset.mpr ⟨h.sub, by simpa using hv⟩
  · intro u hu
    rw [hdigests]
    obtain hu | hu := h.known u hu
    · exact .inl (.inl hu)
    · obtain hu | hu := List.mem_cons.mp hu
      · exact .inl (.inr hu)
      · exact .inr hu
  · intro digest hd
    rw [hdigests, not_or]
    exact ⟨h.apart digest (List.mem_cons_of_mem _ hd), fun heq => hout (heq ▸ hd)⟩
  · intro a ha hdigest e hlead hne
    rw [hdigests] at hdigest ⊢
    obtain hdigest | hdigest := hdigest
    · exact .inl (h.closed a ha hdigest e hlead hne)
    · exact .inl (hbelow a ha hdigest e hlead hne)

end Ledger
end
end SchemaLoom.Xsd
