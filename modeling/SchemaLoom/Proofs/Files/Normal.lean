import Mathlib.Data.List.TakeWhile
import SchemaLoom.Proofs.Files.Path

/-! Names in normal form are read back as they are written, and a name is its stem with at most one
suffix behind it. -/
namespace SchemaLoom.Files

lemma foldr_cut_ne_nil (cs : List Char) : cs.foldr cut [[]] ≠ [] := by
  obtain ⟨front, more, h⟩ := foldr_cut_last cs []
  rw [h]
  exact List.append_ne_nil_of_right_ne_nil front (List.cons_ne_nil _ _)

lemma foldr_cut_slash {part : List Char} (h : '/' ∉ part) (rest : List Char) :
    (part ++ '/' :: rest).foldr cut [[]] = part :: rest.foldr cut [[]] := by
  induction part with
  | nil =>
    obtain ⟨first, others, hrest⟩ := List.exists_cons_of_ne_nil (foldr_cut_ne_nil rest)
    rw [List.nil_append, List.foldr_cons, hrest]
    rfl
  | cons c part ih =>
    have hc : c ≠ '/' := fun e => h (by simp [e])
    rw [List.cons_append, List.foldr_cons, ih fun hm => h (List.mem_cons_of_mem _ hm)]
    simp [cut, hc]

lemma slash_notMem_of_mem_cut (cs : List Char) : ∀ part ∈ cs.foldr cut [[]], '/' ∉ part := by
  induction cs with
  | nil => simp
  | cons c cs ih =>
    obtain ⟨first, others, hrest⟩ := List.exists_cons_of_ne_nil (foldr_cut_ne_nil cs)
    rw [hrest] at ih
    rw [List.foldr_cons, hrest, cut]
    split
    · exact List.forall_mem_cons.mpr ⟨List.not_mem_nil, ih⟩
    · rename_i hc
      obtain ⟨hfirst, hothers⟩ := List.forall_mem_cons.mp ih
      refine List.forall_mem_cons.mpr ⟨?_, hothers⟩
      have hne : '/' ≠ c := fun e => hc (by rw [← e]; rfl)
      simp [hne, hfirst]

theorem slash_notMem_of_mem_segments {s name : String} (h : s ∈ segments name) :
    '/' ∉ s.toList := by
  rw [segments_eq] at h
  obtain ⟨part, hpart, rfl⟩ := List.mem_map.mp h
  rw [String.toList_ofList]
  exact slash_notMem_of_mem_cut _ part hpart

section
variable {a b : String} {parts : List String}

theorem segments_of_notMem (ha : '/' ∉ a.toList) : segments a = [a] := by
  rw [segments_eq, foldr_cut_clean ha]
  simp

theorem segments_slash (ha : '/' ∉ a.toList) : segments (a ++ "/" ++ b) = a :: segments b := by
  have hlist : (a ++ "/" ++ b).toList = a.toList ++ '/' :: b.toList := by simp
  rw [segments_eq, hlist, foldr_cut_slash ha, List.map_cons, ← segments_eq, String.ofList_toList]

theorem segments_intercalate (hne : parts ≠ []) (h : ∀ s ∈ parts, '/' ∉ s.toList) :
    segments ("/".intercalate parts) = parts := by
  induction parts with
  | nil => exact absurd rfl hne
  | cons s rest ih =>
    obtain ⟨hs, hrest⟩ := List.forall_mem_cons.mp h
    by_cases hend : rest = []
    · subst hend
      rw [String.intercalate_singleton, segments_of_notMem hs]
    · rw [String.intercalate_cons_of_ne_nil hend, segments_slash hs, ih hend hrest]

end

namespace Path

/-- A segment of a name in normal form. -/
structure IsSegment (s : String) : Prop where
  noSlash : '/' ∉ s.toList
  nonempty : s ≠ ""
  noDot : s ≠ "."

structure IsNormal (p : Path) : Prop where
  anchor : p.anchor ∈ ["", "/", "//"]
  parts : ∀ s ∈ p.parts, IsSegment s

theorem isNormal_ofText (name : String) : (ofText name).IsNormal where
  anchor := by
    change anchorOf name ∈ _
    unfold anchorOf
    split <;> decide
  parts s hs := by
    obtain ⟨hmem, hkept⟩ := List.mem_filter.mp hs
    simp only [Bool.and_eq_true, bne_iff_ne] at hkept
    exact ⟨slash_notMem_of_mem_segments hmem, hkept.1, hkept.2⟩

section
variable {p : Path} {s : String}

lemma IsNormal.parent (h : p.IsNormal) : p.parent.IsNormal :=
  ⟨h.anchor, fun s hs => h.parts s (List.dropLast_subset _ hs)⟩

lemma parts_of_isSegment (h : IsSegment s) : (ofText s).parts = [s] := by
  simp [ofText, segments_of_notMem h.noSlash, h.nonempty, h.noDot]

theorem join_of_isSegment (h : IsSegment s) : p.join s = ⟨p.anchor, p.parts ++ [s]⟩ := by
  rw [join, parts_of_isSegment h]

lemma IsNormal.join (hp : p.IsNormal) (h : IsSegment s) : (p.join s).IsNormal := by
  rw [join_of_isSegment h]
  refine ⟨hp.anchor, fun t ht => ?_⟩
  obtain ht | ht := List.mem_append.mp ht
  · exact hp.parts t ht
  · exact List.mem_singleton.mp ht ▸ h

/-- The segments of a name that count. -/
def kept (name : String) : List String := (segments name).filter fun s => s != "" && s != "."

lemma kept_slash (name : String) : kept ("/" ++ name) = kept name := by
  have hsegments := segments_slash (a := "") (b := name) (by simp)
  rw [String.empty_append] at hsegments
  rw [kept, hsegments, List.filter_cons_of_neg (by simp), kept]

lemma kept_intercalate {parts : List String} (h : ∀ s ∈ parts, IsSegment s) :
    kept ("/".intercalate parts) = parts := by
  by_cases hnone : parts = []
  · subst hnone
    rfl
  · rw [kept, segments_intercalate hnone fun s hs => (h s hs).noSlash]
    refine List.filter_eq_self.mpr fun s hs => ?_
    simp [(h s hs).nonempty, (h s hs).noDot]

/-- Segments between slashes do not begin with one. -/
lemma takeWhile_slash_intercalate {parts : List String} (h : ∀ s ∈ parts, IsSegment s) :
    ("/".intercalate parts).toList.takeWhile (· == '/') = [] := by
  cases parts with
  | nil => simp
  | cons s rest =>
    have hs := h s List.mem_cons_self
    obtain ⟨c, cs, hcs⟩ := List.exists_cons_of_ne_nil (by simpa using hs.nonempty : s.toList ≠ [])
    have hc : c ≠ '/' := fun e => hs.noSlash (by simp [hcs, e])
    obtain ⟨more, hmore⟩ : ∃ more, "/".intercalate (s :: rest) = s ++ more := by
      by_cases hend : rest = []
      · exact ⟨"", by simp [hend]⟩
      · exact ⟨_, (String.intercalate_cons_of_ne_nil hend).trans (String.append_assoc ..)⟩
    rw [hmore, String.toList_append, hcs, List.cons_append,
      List.takeWhile_cons_of_neg (by simpa using hc)]

/-- What stands in front of a name that does not begin with a slash is read back as well. -/
lemma ofText_append {anchor name : String} (hanchor : anchor ∈ ["", "/", "//"])
    (hname : name.toList.takeWhile (· == '/') = []) :
    ofText (anchor ++ name) = ⟨anchor, kept name⟩ := by
  simp only [List.mem_cons, List.not_mem_nil, or_false] at hanchor
  change Path.mk (anchorOf (anchor ++ name)) (kept (anchor ++ name)) = _
  obtain rfl | rfl | rfl := hanchor
  · simp [anchorOf, hname]
  · simp [anchorOf, hname, kept_slash]
  · have htwo : "//" ++ name = "/" ++ ("/" ++ name) := by
      rw [← String.append_assoc]
      rfl
    simp [anchorOf, hname, htwo, kept_slash]

/-- A name in normal form is read back as it is written. -/
theorem ofText_text (h : p.IsNormal) : ofText p.text = p := by
  unfold text
  split
  · rename_i hplace
    obtain ⟨hanchor, hparts⟩ := Bool.and_eq_true_iff.mp hplace
    rw [beq_iff_eq] at hanchor
    rw [List.isEmpty_iff] at hparts
    cases p
    subst hanchor hparts
    rfl
  · rw [ofText_append h.anchor (takeWhile_slash_intercalate h.parts), kept_intercalate h.parts]

end

/-- Behind its stem a name has nothing, or a dot and further characters that are no dots. -/
theorem stem_cases (p : Path) : p.stem = p.name ∨
    ∃ suffix : List Char, '.' ∉ suffix ∧ p.name.toList = p.stem.toList ++ '.' :: suffix := by
  have hcut : p.name.toList.reverse.takeWhile (· != '.') ++
      p.name.toList.reverse.dropWhile (· != '.') =
      p.name.toList.reverse := List.takeWhile_append_dropWhile
  unfold stem
  simp only
  cases hback : p.name.toList.reverse.dropWhile (· != '.') with
  | nil => exact .inl rfl
  | cons dot front =>
    have hdot : dot = '.' := by
      have hhead := List.head?_dropWhile_not (· != '.') p.name.toList.reverse
      simpa [hback] using hhead
    split
    · exact .inl rfl
    · have hname : p.name.toList = front.reverse ++
          '.' :: (p.name.toList.reverse.takeWhile (· != '.')).reverse := by
        rw [hback, hdot] at hcut
        simpa using (congrArg List.reverse hcut).symm
      refine .inr ⟨(p.name.toList.reverse.takeWhile (· != '.')).reverse, fun hmem => ?_, ?_⟩
      · exact absurd (List.mem_takeWhile_imp (List.mem_reverse.mp hmem)) (by decide)
      · rw [String.toList_ofList]
        exact hname

end Path

section
variable {front suffix : List Char}

lemma takeWhile_reverse_suffix (h : '.' ∉ suffix) :
    (front ++ '.' :: suffix).reverse.takeWhile (· != '.') = suffix.reverse := by
  have hplain : ∀ c ∈ suffix.reverse, (c != '.') = true := fun c hc => by
    have hne : c ≠ '.' := fun e => h (e ▸ List.mem_reverse.mp hc)
    simpa using hne
  rw [List.reverse_append, List.reverse_cons, List.append_assoc,
    List.takeWhile_append_of_pos hplain]
  simp

lemma dropWhile_reverse_suffix (h : '.' ∉ suffix) :
    (front ++ '.' :: suffix).reverse.dropWhile (· != '.') = '.' :: front.reverse := by
  have hwhole := List.takeWhile_append_dropWhile (p := (· != '.'))
      (l := (front ++ '.' :: suffix).reverse)
  rw [takeWhile_reverse_suffix h] at hwhole
  exact List.append_cancel_left (hwhole.trans (by simp))

end

/-- A suffix is what follows the last dot, unless only dots are in front of it. -/
lemma withoutSuffix_append {front middle suffix : String}
    (hslash : '/' ∉ (middle ++ "." ++ suffix).toList) (hsuffix : '.' ∉ suffix.toList)
    (hmiddle : ∃ c ∈ middle.toList, c ≠ '.') :
    withoutSuffix (front ++ (middle ++ "." ++ suffix)) = front ++ middle := by
  obtain ⟨above, more, hsegments⟩ := segments_append (a := front) hslash
  have hbase : (baseName (front ++ (middle ++ "." ++ suffix))).toList =
      (more ++ middle).toList ++ '.' :: suffix.toList := by
    simp [baseName, hsegments]
  have hany : (more ++ middle).toList.any (· != '.') = true := by
    obtain ⟨c, hc, hne⟩ := hmiddle
    refine List.any_eq_true.mpr ⟨c, ?_, by simpa using hne⟩
    rw [String.toList_append]
    exact List.mem_append_right _ hc
  have hwhole : (front ++ (middle ++ "." ++ suffix)).toList =
      (front ++ middle).toList ++ '.' :: suffix.toList := by
    simp
  have hlength : (front ++ (middle ++ "." ++ suffix)).length - suffix.toList.reverse.length - 1 =
      (front ++ middle).toList.length := by
    rw [← String.length_toList, hwhole, List.length_append, List.length_cons, List.length_reverse]
    omega
  unfold withoutSuffix
  simp only [hbase, takeWhile_reverse_suffix hsuffix, dropWhile_reverse_suffix hsuffix,
    List.drop_one, List.tail_cons, List.reverse_reverse, hany, hlength, Bool.and_true]
  rw [hwhole, List.take_left, String.ofList_toList, if_pos (by simp)]

end SchemaLoom.Files
