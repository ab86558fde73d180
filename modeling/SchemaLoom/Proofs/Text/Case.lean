import Mathlib.Tactic.Lemma
import SchemaLoom.Text.Case
import SchemaLoom.Xml.Name

/-! Capitals: what the upper case of a character can be. The tables of case name as targets only
characters that a document can hold, and none of the small letters that a qualifier begins with. -/
namespace SchemaLoom.Text

/-- Code points from one to another are fit for capitals. -/
def isCapitalZone (low high : Int) : Bool :=
  (decide (0x20 ≤ low) && decide (high < 0x74)) ||
    (decide (0x78 < low) && decide (high ≤ 0xd7ff)) ||
  (decide (0xe000 ≤ low) && decide (high ≤ 0xfffd)) ||
  (decide (0x10000 ≤ low) && decide (high ≤ 0x10ffff))

/-- What the upper case of a character is not, and what it is. -/
structure IsCapital (u : Char) : Prop where
  ne_x : u ≠ 'x'
  ne_t : u ≠ 't'
  legal : Xml.isXmlChar u

lemma toNat_ofNat_of_isValidChar {n : Nat} (h : n.isValidChar) : (Char.ofNat n).toNat = n := by
  rw [Char.ofNat, dif_pos h]
  rfl

lemma isCapital_of_zone {low high : Int} (hz : isCapitalZone low high) {n : Int} (hl : low ≤ n)
    (hh : n ≤ high) : IsCapital (Char.ofNat n.toNat) := by
  simp only [isCapitalZone, Bool.or_eq_true, Bool.and_eq_true, decide_eq_true_eq] at hz
  have hvalid : n.toNat.isValidChar := by
    unfold Nat.isValidChar
    omega
  have hn : (Char.ofNat n.toNat).toNat = n.toNat := toNat_ofNat_of_isValidChar hvalid
  refine ⟨fun h => ?_, fun h => ?_, ?_⟩
  · have hx : n.toNat = 0x78 := by rw [← hn, h]; rfl
    omega
  · have ht : n.toNat = 0x74 := by rw [← hn, h]; rfl
    omega
  · simp only [Xml.isXmlChar, hn, Bool.or_eq_true, Bool.and_eq_true, beq_iff_eq, decide_eq_true_eq]
    omega

lemma expansions_capital : upperExpansions.all fun e => e.2.all fun n => isCapitalZone n n := by
  decide +kernel

lemma runs_capital : upperRuns.all fun r =>
    isCapitalZone (r.first + r.shift) (r.last + r.shift) := by
  decide +kernel

lemma first_mem_upperRuns : (⟨0x61, 0x7a, 1, -32⟩ : CaseRun) ∈ upperRuns := List.mem_cons_self

/-- A capital comes from a table, or is the character itself, which is no small letter of ASCII. -/
theorem isCapital_or_self {c u : Char} (hu : u ∈ upperOf c) :
    IsCapital u ∨ u = c ∧ c ≠ 'x' ∧ c ≠ 't' := by
  unfold upperOf at hu
  cases hl : upperExpansions.lookup c.toNat with
  | some codes =>
    rw [hl] at hu
    obtain ⟨n, hn, rfl⟩ := List.mem_map.mp hu
    obtain ⟨l, r, he, -⟩ := List.lookup_eq_some_iff.mp hl
    have hmem : (c.toNat, codes) ∈ upperExpansions := by rw [he]; simp
    have hz := List.all_eq_true.mp (List.all_eq_true.mp expansions_capital _ hmem) n hn
    exact .inl (isCapital_of_zone hz (Int.le_refl n) (Int.le_refl n))
  | none =>
    simp only [hl, List.mem_singleton] at hu
    subst hu
    unfold shifted?
    cases hf : upperRuns.find? (fun r => r.covers c.toNat) with
    | none =>
      have hfirst := List.find?_eq_none.mp hf _ first_mem_upperRuns
      refine .inr ⟨rfl, ?_, ?_⟩ <;> rintro rfl <;> exact hfirst (by decide)
    | some r =>
      have hcovers : r.covers c.toNat := List.find?_some (p := (CaseRun.covers · c.toNat)) hf
      have hz := List.all_eq_true.mp runs_capital r (List.mem_of_find?_eq_some hf)
      simp only [CaseRun.covers, Bool.and_eq_true, decide_eq_true_eq] at hcovers
      exact .inl (isCapital_of_zone hz (by omega) (by omega))

theorem upperOf_ne_nil (c : Char) : upperOf c ≠ [] := by
  have hall : upperExpansions.all fun e => !e.2.isEmpty := by decide +kernel
  unfold upperOf
  cases hl : upperExpansions.lookup c.toNat with
  | some codes =>
    obtain ⟨l, r, he, -⟩ := List.lookup_eq_some_iff.mp hl
    have hne := List.all_eq_true.mp hall (c.toNat, codes) (by rw [he]; simp)
    simpa using hne
  | none => simp

/-- No capital is a small letter that a qualifier begins with. -/
theorem ne_of_mem_upperOf {c u : Char} (hu : u ∈ upperOf c) : u ≠ 'x' ∧ u ≠ 't' := by
  obtain h | ⟨rfl, h⟩ := isCapital_or_self hu
  · exact ⟨h.ne_x, h.ne_t⟩
  · exact h

/-- Capitals of what a document can hold can be held too. -/
theorem isXmlChar_of_mem_upperOf {c u : Char} (hc : Xml.isXmlChar c) (hu : u ∈ upperOf c) :
    Xml.isXmlChar u := by
  obtain h | ⟨rfl, -⟩ := isCapital_or_self hu
  · exact h.legal
  · exact hc

/-- A text keeps all but its first character when that becomes a capital. -/
theorem toList_upperFirst (s : String) : (upperFirst s).toList = match s.toList with
    | [] => []
    | c :: rest => upperOf c ++ rest := by
  unfold upperFirst
  cases s.toList <;> simp

/-! ## Capitals begin names -/

/-- The code points that names begin with, from the first to the last of each row. -/
def startZones : List (Int × Int) :=
  [(0x41, 0x5a), (0x61, 0x7a), (0x5f, 0x5f), (0xc0, 0xd6), (0xd8, 0xf6), (0xf8, 0x2ff),
    (0x370, 0x37d), (0x37f, 0x1fff),
    (0x200c, 0x200d), (0x2070, 0x218f), (0x2c00, 0x2fef), (0x3001, 0xd7ff), (0xf900, 0xfdcf),
    (0xfdf0, 0xfffd),
    (0x10000, 0xeffff)]

lemma isNameStart_iff {c : Char} :
    Xml.isNameStart c = true ↔ ∃ z ∈ startZones, z.1 ≤ (c.toNat : Int) ∧ (c.toNat : Int) ≤ z.2 := by
  have halpha : c.isAlpha = true ↔
      (0x41 ≤ c.toNat ∧ c.toNat ≤ 0x5a) ∨ (0x61 ≤ c.toNat ∧ c.toNat ≤ 0x7a) := by
    change (decide (c.val ≥ 'A'.val ∧ c.val ≤ 'Z'.val) ||
      (decide (c.val ≥ 'a'.val) && decide (c.val ≤ 'z'.val))) =
      true ↔ _
    simp [UInt32.le_iff_toNat_le]
  have hscore : c = '_' ↔ c.toNat = 0x5f := by
    rw [← Char.toNat_inj]
    rfl
  simp only [Xml.isNameStart, startZones, List.mem_cons, List.not_mem_nil, or_false,
    exists_eq_or_imp, exists_eq_left, Bool.or_eq_true, Bool.and_eq_true, halpha, beq_iff_eq, hscore,
    decide_eq_true_eq, bne_iff_ne]
  omega

/-- What a run moves begins no names, or is moved to what does. -/
lemma runs_start : upperRuns.all fun r =>
    (startZones.any fun z => decide (z.1 ≤ r.first + r.shift) && decide (r.last + r.shift ≤ z.2)) ||
      startZones.all fun z => decide (r.last < z.1) || decide (z.2 < r.first) := by
  decide +kernel

lemma expansions_plain : upperExpansions.all fun e => Xml.isPlainName (e.2.map Char.ofNat) := by
  decide +kernel

/-- The upper case of what begins a name is a name. -/
theorem isPlainName_upperOf {c : Char} (h : Xml.isNameStart c = true) :
    Xml.isPlainName (upperOf c) = true := by
  have hsingle {u : Char} (hu : Xml.isNameStart u = true) : Xml.isPlainName [u] = true := by
    simp [Xml.isPlainName, hu]
  unfold upperOf
  cases hl : upperExpansions.lookup c.toNat with
  | some codes =>
    obtain ⟨l, r, he, -⟩ := List.lookup_eq_some_iff.mp hl
    exact List.all_eq_true.mp expansions_plain (c.toNat, codes) (by rw [he]; simp)
  | none =>
    apply hsingle
    unfold shifted?
    cases hf : upperRuns.find? (fun r => r.covers c.toNat) with
    | none => exact h
    | some r =>
      have hcovers : r.covers c.toNat := List.find?_some (p := (CaseRun.covers · c.toNat)) hf
      simp only [CaseRun.covers, Bool.and_eq_true, decide_eq_true_eq] at hcovers
      have hrun := List.all_eq_true.mp runs_start r (List.mem_of_find?_eq_some hf)
      obtain hto | hfrom := Bool.or_eq_true_iff.mp hrun
      · obtain ⟨z, hz, hto⟩ := List.any_eq_true.mp hto
        simp only [Bool.and_eq_true, decide_eq_true_eq] at hto
        have hzones : ∀ z ∈ startZones, 0 ≤ z.1 ∧
            (z.2 < 0xd800 ∨ 0xdfff < z.1 ∧ z.2 < 0x110000) := by decide
        have hzone := hzones z hz
        have hvalid : ((c.toNat : Int) + r.shift).toNat.isValidChar := by
          unfold Nat.isValidChar
          omega
        refine isNameStart_iff.mpr ⟨z, hz, ?_⟩
        rw [Option.map_some, Option.getD_some, toNat_ofNat_of_isValidChar hvalid]
        omega
      · -- The character is in no row of those that begin names.
        obtain ⟨z, hz, hlow, hhigh⟩ := isNameStart_iff.mp h
        have hout := List.all_eq_true.mp hfrom z hz
        simp only [Bool.or_eq_true, decide_eq_true_eq] at hout
        omega

end SchemaLoom.Text
