import SchemaLoom.Proofs.Xsd.Memo

/-! Strict mode next to permissive mode: both do the same until permissive mode tells that
declarations differ, and there strict mode fails with what was told. -/
namespace SchemaLoom.Xsd
open Profile (Declaration Facts Siblings Trail Event ConversionError placed placedGroups)

/-- The same choices in some mode. -/
def Settings.inMode (s : Settings) (mode : MergeMode) : Settings := { s with mode := mode }

/-- What an event tells of declarations that differ: how many they are, and their name. -/
def divergence? : Event → Option (Nat × String)
  | .told (.divergent count name) => some (count, name)
  | _ => none

/-- The divergences among events, which come the latest first, in the order they were told. -/
def divergences (events : List Event) : List (Nat × String) := events.reverse.filterMap divergence?

theorem divergences_append (later earlier : List Event) :
    divergences (later ++ earlier) = divergences earlier ++ divergences later := by
  simp only [divergences, List.reverse_append, List.filterMap_append]

/-- One step follows another: it does the same up to the first divergence that the other one tells,
and fails there. -/
def Follows {α : Type} (strict permissive : Compiling α) : Prop :=
  ∀ c, ∃ new, (permissive.run c).2.events = new ++ c.events ∧
    match divergences new with
    | [] => strict.run c = permissive.run c
    | (count, name) :: _ => (strict.run c).1 = .error (.conflict name count)

/-- A step tells of no divergence, and takes back nothing that was told. -/
def Silent {α : Type} (m : Compiling α) : Prop :=
  ∀ c, ∃ new, (m.run c).2.events = new ++ c.events ∧ divergences new = []

section
variable {α β : Type}

lemma run_bind_error {m : Compiling α} {c : Context} {e : ConversionError}
    (h : (m.run c).1 = .error e) (f : α → Compiling β) : ((m >>= f).run c).1 = .error e := by
  rw [run_bind]
  rcases hm : m.run c with ⟨e' | a, c'⟩
  · rw [hm] at h
    cases h
    rfl
  · rw [hm] at h
    cases h

namespace Silent

theorem pure (a : α) : Silent (pure a) := fun _ => ⟨[], rfl, rfl⟩

theorem throw (e : ConversionError) : Silent (throw e : Compiling α) := fun _ => ⟨[], rfl, rfl⟩

theorem tell {e : Event} (h : divergence? e = none) : Silent (tell e) := by
  intro c
  refine ⟨[e], rfl, ?_⟩
  simp [divergences, h]

theorem modify {g : Context → Context} (h : ∀ c, (g c).events = c.events) :
    Silent (modify g : Compiling Unit) := fun c => ⟨[], h c, rfl⟩

theorem bind {m : Compiling α} {f : α → Compiling β} (hm : Silent m) (hf : ∀ a, Silent (f a)) :
    Silent (m >>= f) := by
  intro c
  obtain ⟨new, hevents, hnone⟩ := hm c
  rw [run_bind]
  rcases hr : m.run c with ⟨e | a, c₁⟩
  · rw [hr] at hevents
    exact ⟨new, hevents, hnone⟩
  · rw [hr] at hevents
    obtain ⟨new', hevents', hnone'⟩ := hf a c₁
    refine ⟨new' ++ new, ?_, ?_⟩
    · rw [List.append_assoc, ← hevents]
      exact hevents'
    · rw [divergences_append, hnone, hnone', List.nil_append]

theorem forM {xs : List α} {f : α → Compiling Unit} (hf : ∀ x ∈ xs, Silent (f x)) :
    Silent (xs.forM f) := by
  induction xs with
  | nil => exact pure ()
  | cons x xs ih =>
    exact bind (hf x (by simp)) fun _ => ih fun y hy => hf y (by simp [hy])

end Silent

namespace Follows

theorem of_silent {m : Compiling α} (h : Silent m) : Follows m m := by
  intro c
  obtain ⟨new, hevents, hnone⟩ := h c
  refine ⟨new, hevents, ?_⟩
  rw [hnone]

theorem bind {m n : Compiling α} {f g : α → Compiling β} (hm : Follows m n)
    (hf : ∀ a, Follows (f a) (g a)) : Follows (m >>= f) (n >>= g) := by
  intro c
  obtain ⟨new, hevents, hcase⟩ := hm c
  rcases hn : n.run c with ⟨e | a, c₁⟩
  · refine ⟨new, ?_, ?_⟩
    · rw [run_bind, hn, ← hevents, hn]
    · split at hcase
      · rw [run_bind, run_bind, hcase, hn]
      · exact run_bind_error hcase f
  · rw [hn] at hevents
    obtain ⟨new', hevents', hcase'⟩ := hf a c₁
    refine ⟨new' ++ new, ?_, ?_⟩
    · rw [run_bind, hn, List.append_assoc, ← hevents]
      exact hevents'
    · rw [divergences_append]
      split at hcase
      · rename_i hnone
        rw [hnone, List.nil_append, run_bind, run_bind, hcase, hn]
        exact hcase'
      · rename_i hsome
        rw [hsome, List.cons_append]
        exact run_bind_error hcase f

theorem get_bind {f g : Context → Compiling β} (h : ∀ c, Follows (f c) (g c)) :
    Follows (get >>= f) (get >>= g) := fun c => h c c

theorem skip {m : Compiling α} {f g : α → Compiling β} (hm : Silent m)
    (hf : ∀ a, Follows (f a) (g a)) : Follows (m >>= f) (m >>= g) := bind (of_silent hm) hf

theorem forM {xs : List α} {f g : α → Compiling Unit} (h : ∀ x ∈ xs, Follows (f x) (g x)) :
    Follows (xs.forM f) (xs.forM g) := by
  induction xs with
  | nil => exact of_silent (.pure ())
  | cons x xs ih =>
    exact bind (h x (by simp)) fun _ => ih fun y hy => h y (by simp [hy])

theorem mapM {xs : List α} {f g : α → Compiling β} (h : ∀ x ∈ xs, Follows (f x) (g x)) :
    Follows (xs.mapM f) (xs.mapM g) := by
  induction xs with
  | nil => exact of_silent (.pure [])
  | cons x xs ih =>
    rw [List.mapM_cons, List.mapM_cons]
    refine bind (h x (by simp)) fun b => ?_
    exact bind (ih fun y hy => h y (by simp [hy])) fun bs => of_silent (.pure (b :: bs))

end Follows
end

lemma follows_divergent (count : Nat) (name : String) :
    Follows (throw (.conflict name count) : Compiling Unit)
    (tell (.told (.divergent count name))) :=
  fun _ => ⟨[.told (.divergent count name)], rfl, rfl⟩

/-! ## Steps of which no mode is asked -/

lemma silent_readAttributes (path : Trail) (f : Facts) : Silent (readAttributes path f) :=
  .forM fun _ _ => .tell rfl

lemma silent_requireLegal (name : String) : Silent (requireLegal name) := by
  unfold requireLegal
  split
  · exact .pure ()
  · exact .throw _

lemma silent_leafContent (path : Trail) (f : Facts) : Silent (leafContent path f) := by
  unfold leafContent
  split
  · exact .bind (silent_readAttributes path f) fun _ => .pure _
  · refine .bind (.tell rfl) fun _ => ?_
    split
    · exact .pure _
    · exact .pure _

/-! ## The steps in both modes -/

/-- A declaration at its place, ready to be compiled in some mode. -/
def Settings.subject (s : Settings) (p : Trail × Declaration) : Subject := .of s p.1 p.2

section
variable {s : Settings}

lemma ofAll_eq_placed (s : Settings) (path : Trail) (k : Nat) (ds : List Declaration) :
    Subject.ofAll s path k ds = (placed path k ds).map s.subject := by
  induction ds generalizing k with
  | nil => rfl
  | cons d ds ih =>
    rw [Subject.ofAll, ih]
    rfl

lemma isEmpty_ofAll (s : Settings) (path : Trail) (k : Nat) (ds : List Declaration) :
    (Subject.ofAll s path k ds).isEmpty = ds.isEmpty := by
  cases ds with
  | nil => rfl
  | cons d ds => rfl

lemma subject_name (s : Settings) (p : Trail × Declaration) : (s.subject p).name = p.2.name := by
  obtain ⟨path, f, children⟩ := p
  rfl

lemma groups_ofAll (s : Settings) (path : Trail) (ds : List Declaration) :
    groups (Subject.ofAll s path 0 ds) = (placedGroups path ds).map (Siblings.map s.subject) := by
  have hname : Subject.name ∘ s.subject = fun p : Trail × Declaration => p.2.name := by
    funext p
    exact subject_name s p
  rw [groups, ofAll_eq_placed, Siblings.byName_map, hname]
  rfl

@[simp] lemma subject_path (s : Settings) (p : Trail × Declaration) : (s.subject p).path = p.1 :=
  Subject.of_path s p.1 p.2

@[simp] lemma subject_declaration (s : Settings) (p : Trail × Declaration) :
    (s.subject p).declaration = p.2 := Subject.of_declaration s p.1 p.2

/-- What strict mode makes of a declaration at its place follows what permissive mode makes of
it. -/
structure Settings.Led (s : Settings) (p : Trail × Declaration) : Prop where
  digest : Follows ((s.inMode .strict).subject p).digest ((s.inMode .permissive).subject p).digest
  body : ∀ name, Follows (((s.inMode .strict).subject p).body name)
    (((s.inMode .permissive).subject p).body name)

variable {g : Siblings (Trail × Declaration)}

lemma rangeOf_subject (s : Settings) (g : Siblings (Trail × Declaration)) :
    rangeOf (g.map s.subject) = g.range (·.2.range) := by
  unfold rangeOf
  rw [Siblings.map_range]
  simp only [Function.comp_def, subject_declaration]

lemma follows_merge (h : ∀ p ∈ g.members, s.Led p) :
    Follows (merge (s.inMode .strict) (g.map (s.inMode .strict).subject))
      (merge (s.inMode .permissive) (g.map (s.inMode .permissive).subject)) := by
  unfold merge
  simp only [Siblings.map_members, Siblings.map_others, Siblings.map_name, Siblings.map_count,
    List.forM_eq_forM, List.forM_map, List.mapM_map, subject_path, List.isEmpty_map]
  refine .skip (.forM fun _ _ => .tell rfl) fun _ => ?_
  split
  · refine .bind (.mapM fun p hp => (h p hp).digest) fun digests => ?_
    split
    · exact follows_divergent g.count g.name
    · exact .of_silent (.pure _)
  · exact .of_silent (.pure _)

lemma follows_typeFor (h : s.Led g.first) (preferred : String) :
    Follows (typeFor (g.map (s.inMode .strict).subject) preferred)
      (typeFor (g.map (s.inMode .permissive).subject) preferred) := by
  unfold typeFor
  simp only [Siblings.map_first, Siblings.map_name]
  refine .bind h.digest fun digest => .get_bind fun c => ?_
  cases c.registry.find? digest with
  | some t => exact .skip (.tell rfl) fun _ => .of_silent (.pure _)
  | none =>
    refine .get_bind fun c => ?_
    refine .skip (.modify fun _ => rfl) fun _ => ?_
    refine .bind (h.body _) fun body => ?_
    exact .skip (.modify fun _ => rfl) fun _ => .of_silent (.pure _)

lemma follows_mergeAll {gs : List (Siblings (Trail × Declaration))}
    (h : ∀ g ∈ gs, ∀ p ∈ g.members, s.Led p) :
    Follows (mergeAll (s.inMode .strict) (gs.map (Siblings.map (s.inMode .strict).subject)))
      (mergeAll (s.inMode .permissive) (gs.map (Siblings.map (s.inMode .permissive).subject))) := by
  unfold mergeAll
  simp only [List.forM_eq_forM, List.forM_map]
  exact .forM fun g hg => follows_merge (h g hg)

lemma follows_entryOf (h : s.Led g.first) :
    Follows (entryOf (g.map (s.inMode .strict).subject))
      (entryOf (g.map (s.inMode .permissive).subject)) := by
  unfold entryOf
  simp only [Siblings.map_first, Siblings.map_name, rangeOf_subject]
  refine .bind h.digest fun digest => ?_
  exact .of_silent (.pure _)

lemma follows_particleOf (h : s.Led g.first) :
    Follows (particleOf (g.map (s.inMode .strict).subject))
      (particleOf (g.map (s.inMode .permissive).subject)) := by
  unfold particleOf
  simp only [Siblings.map_first, Siblings.map_name, subject_declaration, subject_path,
    rangeOf_subject]
  split
  · refine .bind (follows_typeFor h _) fun name => .get_bind fun c => ?_
    exact .of_silent (.pure _)
  · exact .skip (silent_leafContent _ _) fun _ => .of_silent (.pure _)

lemma follows_digestOf (path : Trail) (f : Facts) {children : List Declaration}
    (h : ∀ p ∈ placed path 0 children, s.Led p) :
    Follows (digestOf (s.inMode .strict) path f (Subject.ofAll (s.inMode .strict) path 0 children))
      (digestOf (s.inMode .permissive) path f
        (Subject.ofAll (s.inMode .permissive) path 0 children)) := by
  have hgroups : ∀ g ∈ placedGroups path children, ∀ p ∈ g.members, s.Led p := fun g hg p hp =>
    h p (Siblings.mem_of_mem_members hg hp)
  unfold digestOf
  simp only [groups_ofAll, List.mapM_map]
  refine .get_bind fun c => ?_
  cases c.digests.lookup path with
  | some digest => exact .of_silent (.pure _)
  | none =>
    refine .bind (follows_mergeAll hgroups) fun _ => ?_
    refine .skip (.tell rfl) fun _ => ?_
    refine .skip (silent_readAttributes path f) fun _ => ?_
    refine .bind (.mapM fun g hg => follows_entryOf (hgroups g hg _ g.first_mem_members))
      fun es => ?_
    exact .skip (.modify fun _ => rfl) fun _ => .of_silent (.pure _)

lemma follows_bodyOf (path : Trail) (f : Facts) {children : List Declaration} (name : String)
    (h : ∀ p ∈ placed path 0 children, s.Led p) :
    Follows (bodyOf (s.inMode .strict) path f
    (Subject.ofAll (s.inMode .strict) path 0 children) name)
      (bodyOf (s.inMode .permissive) path f
        (Subject.ofAll (s.inMode .permissive) path 0 children) name) := by
  have hgroups : ∀ g ∈ placedGroups path children, ∀ p ∈ g.members, s.Led p := fun g hg p hp =>
    h p (Siblings.mem_of_mem_members hg hp)
  unfold bodyOf
  simp only [groups_ofAll, List.mapM_map, isEmpty_ofAll]
  refine .bind (follows_mergeAll hgroups) fun _ => ?_
  split
  · refine .skip (silent_requireLegal name) fun _ => ?_
    refine .bind (.mapM fun g hg => follows_particleOf (hgroups g hg _ g.first_mem_members))
      fun ps => ?_
    exact .skip (silent_readAttributes path f) fun _ => .of_silent (.pure _)
  · refine .of_silent ?_
    split
    · refine .bind (silent_requireLegal name) fun _ => ?_
      exact .bind (silent_readAttributes path f) fun _ => .pure _
    · refine .bind (.tell rfl) fun _ => .bind (silent_requireLegal name) fun _ => ?_
      split
      · exact .pure _
      · exact .pure _

theorem Settings.led (s : Settings) : ∀ (d : Declaration) (path : Trail), s.Led (path, d) := by
  intro d
  induction d using Declaration.induction with
  | h f children ih =>
    intro path
    have hbelow : ∀ p ∈ placed path 0 children, s.Led p :=
      fun p hp => ih p.2 (Profile.mem_of_mem_placed hp) p.1
    refine ⟨?_, fun name => ?_⟩
    · exact follows_digestOf path f hbelow
    · exact follows_bodyOf path f name hbelow

lemma follows_rootOf : Follows (rootOf (s.inMode .strict) (g.map (s.inMode .strict).subject))
    (rootOf (s.inMode .permissive) (g.map (s.inMode .permissive).subject)) := by
  unfold rootOf
  simp only [Siblings.map_name]
  refine .bind (follows_merge fun p _ => s.led p.2 p.1) fun _ => ?_
  refine .bind (follows_typeFor (s.led g.first.2 g.first.1) _) fun name => ?_
  refine .skip (.tell rfl) fun _ => .get_bind fun c => ?_
  exact .of_silent (.pure _)

theorem follows_compileRoots (s : Settings) (roots : List Declaration) :
    Follows (compileRoots (s.inMode .strict) roots)
    (compileRoots (s.inMode .permissive) roots) := by
  unfold compileRoots
  simp only [groups_ofAll, List.mapM_map]
  refine .bind (.mapM fun g _ => follows_rootOf) fun declared => .get_bind fun c => .of_silent ?_
  split
  · exact .pure _
  · exact .throw _

end
end SchemaLoom.Xsd
