import SchemaLoom.Files.Store
import SchemaLoom.Proofs.Files.Path

/-! What reading, writing and making directories do to files: a write changes one place, and making
directories adds directories only. -/
namespace SchemaLoom.Files.Store

section
variable {t u : Store} {p q : Place} {name : String} {octets : List UInt8}

lemma entry_of_isGround (h : isGround p = true) : t.entry? p = some .directory := by
  unfold entry?
  simp [h]

lemma not_isGround (h : t.entry? p ≠ some .directory) : isGround p = false := by
  cases hp : isGround p with
  | false => rfl
  | true => exact absurd (entry_of_isGround hp) h

lemma lookup_replace (entries : List (Place × Entry)) (p q : Place) (e : Entry) :
    (entries.map fun (r, old) => if r == p then (r, e) else (r, old)).lookup q =
      if q = p then (entries.lookup p).map fun _ => e else entries.lookup q := by
  induction entries with
  | nil => simp
  | cons entry rest ih =>
    obtain ⟨r, old⟩ := entry
    by_cases hr : r = p <;> by_cases hq : q = r <;> grind

/-- An entry that is put changes its own place and no other. -/
theorem entry_put (hp : isGround p = false) (t : Store) (e : Entry) (q : Place) :
    Store.entry? (t.put p e) q = if q = p then some e else t.entry? q := by
  have hlookup : (t.put p e).entries.lookup q = if q = p then some e else t.entries.lookup q := by
    unfold put
    cases h : t.entries.lookup p with
    | some old =>
      rw [Option.isSome_some, if_pos rfl, lookup_replace, h]
      rfl
    | none =>
      by_cases hq : q = p
      · simp [hq, List.lookup_append, h]
      · simp [hq, List.lookup_append, List.lookup_cons, beq_eq_false_iff_ne.mpr hq]
  unfold entry?
  rw [hlookup]
  by_cases hq : q = p
  · simp [hq, hp]
  · simp [hq]

lemma requireDirectory_eq_ok : t.requireDirectory p = .ok () ↔ t.entry? p = some .directory := by
  unfold requireDirectory
  cases t.entry? p with
  | none => simp
  | some e => cases e <;> simp

/-- What stands on the way is all that counts for following segments. -/
lemma follow_of_directories (h : ∀ q, t.entry? q = some .directory → u.entry? q = some .directory)
    {segments : List String} (hf : t.follow p segments = .ok q) : u.follow p segments = .ok q := by
  induction segments generalizing p with
  | nil => exact hf
  | cons s rest ih =>
    cases hr : t.requireDirectory p with
    | error e =>
      simp only [follow, hr, bind, Except.bind] at hf
      cases hf
    | ok _ =>
      simp only [follow, hr, bind, Except.bind] at hf
      simp only [follow, requireDirectory_eq_ok.mpr (h p (requireDirectory_eq_ok.mp hr)), bind,
        Except.bind]
      exact ih hf

lemma locate_eq_ok : t.locate name = .ok p ↔ name ≠ "" ∧ '\x00' ∉ name.toList ∧
    t.follow (if name.startsWith "/" then ["/"] else []) ((segments name).filter (· != "")) =
      .ok p := by
  unfold locate
  by_cases hname : name = ""
  · simp [hname]
  · by_cases hnull : '\x00' ∈ name.toList
    · simp [hname, hnull]
    · simp [hname, hnull]

lemma locate_of_directories (h : ∀ q, t.entry? q = some .directory → u.entry? q = some .directory)
    (hl : t.locate name = .ok p) : u.locate name = .ok p := by
  obtain ⟨hname, hnull, hf⟩ := locate_eq_ok.mp hl
  exact locate_eq_ok.mpr ⟨hname, hnull, follow_of_directories h hf⟩

lemma follow_concat {segments : List String} {last : String}
    (h : t.follow p (segments ++ [last]) = .ok q) : ∃ above, q = step above last := by
  induction segments generalizing p with
  | nil =>
    cases hr : t.requireDirectory p with
    | error e => simp [follow, hr, bind, Except.bind] at h
    | ok _ =>
      simp only [List.nil_append, follow, hr, bind, Except.bind, Except.ok.injEq] at h
      exact ⟨p, h.symm⟩
  | cons s rest ih =>
    cases hr : t.requireDirectory p with
    | error e => simp [follow, hr, bind, Except.bind] at h
    | ok _ =>
      simp only [List.cons_append, follow, hr, bind, Except.bind] at h
      exact ih h

/-- The place of a name ends as the name does. -/
theorem locate_append {a b : String} (hb : '/' ∉ b.toList) (hlen : 2 < b.length)
    (h : t.locate (a ++ b) = .ok p) : ∃ above more, p = above ++ [more ++ b] := by
  obtain ⟨front, more, hs⟩ := segments_append (a := a) hb
  have hempty : more ++ b ≠ "" := append_ne_of_length (by rw [String.length_empty]; omega)
  have hdot : more ++ b ≠ "." := append_ne_of_length (Nat.lt_of_succ_lt hlen)
  have hdots : more ++ b ≠ ".." := append_ne_of_length hlen
  have hlast : [more ++ b].filter (· != "") = [more ++ b] := by simp [hempty]
  obtain ⟨-, -, hf⟩ := locate_eq_ok.mp h
  rw [hs, List.filter_append, hlast] at hf
  obtain ⟨above, rfl⟩ := follow_concat hf
  exact ⟨above, more, by simp [step, hempty, hdot, hdots]⟩

end

/-- Writing a file puts it at the place of its name, where no directory stands. -/
structure Puts (t : Store) (name : String) (octets : List UInt8) (p : Place) (u : Store) :
    Prop where
  located : t.locate name = .ok p
  free : t.entry? p ≠ some .directory
  plain : endsWithSlash name = false
  entry_eq : ∀ q, u.entry? q = if q = p then some (.file octets) else t.entry? q

section
variable {t u v : Store} {p q : Place} {name : String} {octets : List UInt8}

theorem puts_of_write (h : t.write name octets = .ok u) : ∃ p, t.Puts name octets p u := by
  unfold write at h
  cases hl : t.locate name with
  | error reason =>
    rw [hl] at h
    cases h
  | ok p =>
    simp only [hl] at h
    split at h
    · cases h
    all_goals
      split at h
      · cases h
      · rename_i hentry hslash
        cases h
        have hfree : t.entry? p ≠ some .directory := by simp [hentry]
        exact ⟨p, hl, hfree, Bool.eq_false_iff.mpr hslash, entry_put (not_isGround hfree) t _⟩

lemma Puts.directories (h : t.Puts name octets p u) :
    u.entry? q = some .directory ↔ t.entry? q = some .directory := by
  rw [h.entry_eq q]
  by_cases hq : q = p
  · subst hq
    simp [h.free]
  · simp [hq]

/-- Where names lead is no matter of the files that are written. -/
lemma Puts.locate (h : t.Puts name octets p u) {other : String} :
    u.locate other = .ok q ↔ t.locate other = .ok q :=
  ⟨locate_of_directories fun _ => h.directories.mp,
    locate_of_directories fun _ => h.directories.mpr⟩

lemma read_of_entry (hl : t.locate name = .ok p) (hslash : endsWithSlash name = false)
    (he : t.entry? p = some (.file octets)) : t.read name = .ok octets := by
  simp [read, find, hl, he, hslash, bind, Except.bind, pure, Except.pure]

/-- A file that was written is read as it was written. -/
theorem Puts.read (h : t.Puts name octets p u) : u.read name = .ok octets := by
  apply read_of_entry (h.locate.mpr h.located) h.plain
  simp [h.entry_eq p]

end

/-- Nothing but directories has been added. -/
def Grown (t u : Store) : Prop :=
  ∀ q, u.entry? q = t.entry? q ∨ t.entry? q = none ∧ u.entry? q = some .directory

section
variable {t u v : Store} {q : Place} {octets : List UInt8}

@[refl] lemma Grown.refl (t : Store) : t.Grown t := fun _ => .inl rfl

lemma Grown.trans (h : t.Grown u) (h' : u.Grown v) : t.Grown v := by
  intro q
  have := h q
  have := h' q
  grind

/-- The files are as they were: none is new, none is gone and none has changed. -/
theorem Grown.file_iff (h : t.Grown u) :
    u.entry? q = some (.file octets) ↔ t.entry? q = some (.file octets) := by
  obtain h | ⟨hnone, hdir⟩ := h q
  · rw [h]
  · simp [hnone, hdir]

lemma grown_of_makeDirectory {name : String} (h : t.makeDirectory name = .ok u) : t.Grown u := by
  unfold makeDirectory at h
  cases hl : t.locate name with
  | error reason =>
    rw [hl] at h
    cases h
  | ok p =>
    simp only [hl] at h
    split at h
    · cases h
    · rename_i hp
      cases h
      have hnone : t.entry? p = none := by simpa using hp
      have hground : isGround p = false := not_isGround (t := t) (by simp [hnone])
      intro q
      rw [entry_put hground]
      by_cases hq : q = p
      · exact .inr ⟨by rw [hq, hnone], by simp [hq]⟩
      · exact .inl (by simp [hq])

lemma grown_makeLast (t : Store) (name : String) : t.Grown (t.makeLast name).2 := by
  unfold makeLast
  cases h : t.makeDirectory name with
  | ok u => exact grown_of_makeDirectory h
  | error fault => rfl

lemma grown_makeFrom (fuel : Nat) (t : Store) (name : String) :
    t.Grown (makeFrom fuel t name).2 := by
  induction fuel generalizing t name with
  | zero => rfl
  | succ fuel ih =>
    obtain ⟨⟨above, last⟩, hsplit⟩ : ∃ parts, splitName name = parts := ⟨_, rfl⟩
    have habove := ih t above
    have hboth := habove.trans (grown_makeLast (makeFrom fuel t above).2 name)
    simp only [makeFrom, hsplit]
    split
    · split
      · split
        · exact habove
        · exact hboth
      · split
        · exact habove
        · split
          · exact habove
          · exact hboth
    · exact grown_makeLast t name

/-- Making directories leaves the files alone, also where it fails. -/
theorem grown_makeDirectories (t : Store) (name : String) : t.Grown (t.makeDirectories name).2 :=
  grown_makeFrom _ t name

end
end SchemaLoom.Files.Store
