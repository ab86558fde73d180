import Mathlib.Data.List.Nodup
import Mathlib.Data.List.Perm.Subperm
import Mathlib.Data.Nat.Find
import SchemaLoom.Proofs.Number.Decimal
import SchemaLoom.Proofs.Text.Case
import SchemaLoom.Xsd.Registry
import SchemaLoom.Xml.Naming

/-! Names of types: a free name is always found, variants of different names differ, names that
carry no qualifier stay so when they are numbered, and a reference to a named type is told from a
reference to a built-in one. -/
namespace SchemaLoom.Xsd
open Profile (Primitive)

namespace Registry

theorem numbered_injective (preferred : String) : Function.Injective (numbered preferred) := by
  have hne (k : Nat) : preferred ≠ preferred ++ Number.natText (k + 1) := by
    intro h
    have hl := congrArg String.length h
    have hd : (Number.natText (k + 1)).toList ≠ [] := by
      rw [Number.toList_natText]
      exact Nat.toDigits_ne_nil
    rw [String.length_append] at hl
    have hz : (Number.natText (k + 1)).length = 0 := by omega
    rw [← String.length_toList] at hz
    exact hd (List.length_eq_zero_iff.mp hz)
  intro i j h
  cases i with
  | zero =>
    cases j with
    | zero => rfl
    | succ j => exact absurd h (hne j)
  | succ i =>
    cases j with
    | zero => exact absurd h.symm (hne i)
    | succ j =>
      have hd : Number.natText (i + 1) = Number.natText (j + 1) := by
        simpa [numbered] using h
      exact Number.natText_injective hd

/-- Among more candidates than names are taken one is free. -/
lemma exists_free (used : List String) (preferred : String) :
    ∃ k ∈ List.range (used.length + 1), numbered preferred k ∉ used := by
  by_contra hall
  have hsub : (List.range (used.length + 1)).map (numbered preferred) ⊆ used := by
    intro name hname
    obtain ⟨k, hk, rfl⟩ := List.mem_map.mp hname
    by_contra hfree
    exact hall ⟨k, hk, hfree⟩
  have hnodup : ((List.range (used.length + 1)).map (numbered preferred)).Nodup :=
    List.Nodup.map (numbered_injective preferred) List.nodup_range
  have hle := (List.subperm_of_subset hnodup hsub).length_le
  rw [List.length_map, List.length_range] at hle
  omega

/-- The first variant of a name that is free is chosen. -/
theorem freeName_eq {used : List String} {preferred : String} {n : Nat}
    (htaken : ∀ k < n, numbered preferred k ∈ used) (hfree : numbered preferred n ∉ used) :
    freeName used preferred = numbered preferred n := by
  obtain ⟨k, hk, hk'⟩ := exists_free used preferred
  have hn : n ≤ used.length := by
    have hle := mt (htaken k) hk'
    have hlt := List.mem_range.mp hk
    omega
  obtain ⟨m, hm⟩ := Nat.exists_eq_add_of_le hn
  have hrange : List.range (used.length + 1) =
      List.range n ++ n :: (List.range m).map (n + 1 + ·) := by
    rw [hm, Nat.add_assoc, List.range_add, List.range_succ_eq_map, List.map_cons, List.map_map]
    simp [Function.comp_def, Nat.add_assoc, Nat.add_comm 1]
  have hearlier : (List.range n).findSome? (fun k => let name := numbered preferred k
      if used.contains name then none else some name) = none := by
    refine List.findSome?_eq_none_iff.mpr fun k hk => ?_
    simp [htaken k (List.mem_range.mp hk)]
  have hnext : used.contains (numbered preferred n) = false := by simpa using hfree
  rw [freeName, hrange, List.findSome?_append, hearlier, Option.none_or, List.findSome?_cons]
  simp only [hnext]
  rfl

/-- The name that is chosen is a variant of the preferred one and free, and those before it are
taken. -/
theorem freeName_spec (used : List String) (preferred : String) :
    ∃ k, freeName used preferred = numbered preferred k ∧ numbered preferred k ∉ used ∧
      ∀ j < k, numbered preferred j ∈ used := by
  have hexists : ∃ k, numbered preferred k ∉ used :=
    (exists_free used preferred).imp fun _ h => h.2
  have hfree := Nat.find_spec hexists
  have htaken : ∀ j < Nat.find hexists, numbered preferred j ∈ used := fun j hj =>
    not_not.mp (Nat.find_min hexists hj)
  exact ⟨_, freeName_eq htaken hfree, hfree, htaken⟩

theorem freeName_not_mem (used : List String) (preferred : String) :
    freeName used preferred ∉ used := by
  obtain ⟨k, hk, hfree, -⟩ := freeName_spec used preferred
  exact hk ▸ hfree

end Registry

/-! ## Names that are not mixed up -/

/-- A text is another one with digits behind it. -/
def ExtendsByDigits (a b : String) : Prop :=
  ∃ digits : String, digits ≠ "" ∧ (∀ c ∈ digits.toList, c.isDigit) ∧ a = b ++ digits

namespace Registry

lemma exists_digits_of_numbered (preferred : String) (k : Nat) : ∃ digits : String,
    numbered preferred k = preferred ++ digits ∧ ∀ c ∈ digits.toList, c.isDigit := by
  cases k with
  | zero => exact ⟨"", by simp [numbered], by simp⟩
  | succ k => exact ⟨_, rfl, fun c hc => Number.isDigit_of_mem_natText hc⟩

/-- A name that begins a variant of another one is that one, or the other one with digits behind
it. -/
lemma eq_or_extends_of_append {a b more : String} {j : Nat} (h : a ++ more = numbered b j)
    (hb : b.toList <+: a.toList) : a = b ∨ ExtendsByDigits a b := by
  obtain ⟨digits, hnumbered, hdigits⟩ := exists_digits_of_numbered b j
  obtain ⟨between, hbetween⟩ := hb
  have ha : a = b ++ String.ofList between := by
    rw [← String.toList_inj, String.toList_append, String.toList_ofList, hbetween]
  have hrest : between ++ more.toList = digits.toList := by
    rw [hnumbered, ha, String.append_assoc] at h
    simpa using congrArg String.toList (String.append_right_inj b |>.mp h)
  by_cases hempty : between = []
  · exact .inl (by simpa [hempty] using ha)
  · refine .inr ⟨String.ofList between, by simpa using hempty, fun c hc => hdigits c ?_, ha⟩
    rw [← hrest]
    exact List.mem_append_left _ (by simpa using hc)

/-- Variants of two names of which none is the other one with digits behind it are the same only if
they are the same variant of one name. -/
theorem numbered_inj {a b : String} {i j : Nat} (hab : ¬ExtendsByDigits a b)
    (hba : ¬ExtendsByDigits b a) (h : numbered a i = numbered b j) : a = b ∧ i = j := by
  have hsame : a = b := by
    obtain ⟨da, ha, -⟩ := exists_digits_of_numbered a i
    obtain ⟨db, hb, -⟩ := exists_digits_of_numbered b j
    have hpa : a.toList <+: (numbered a i).toList := by
      rw [ha, String.toList_append]
      exact List.prefix_append _ _
    have hpb : b.toList <+: (numbered a i).toList := by
      rw [h, hb, String.toList_append]
      exact List.prefix_append _ _
    obtain hpre | hpre := List.prefix_or_prefix_of_prefix hpa hpb
    · exact ((eq_or_extends_of_append (hb.symm.trans h.symm) hpre).resolve_right hba).symm
    · exact (eq_or_extends_of_append (ha.symm.trans h) hpre).resolve_right hab
  subst hsame
  exact ⟨rfl, numbered_injective a h⟩

/-- Of some names as many variants are taken as a count says. -/
def TakenTo (r : Registry) (names : String → Prop) (count : String → Nat) : Prop :=
  ∀ name, names name → ∀ k, numbered name k ∈ r.usedNames ↔ k < count name

/-- Where none of the names is another one with digits behind it, the next variant is given, and
taken. -/
theorem TakenTo.allocate {r : Registry} {names : String → Prop} {count : String → Nat}
    (h : r.TakenTo names count) (hnames : ∀ a b, names a → names b → ¬ExtendsByDigits a b)
    {preferred : String} (hp : names preferred) :
    (r.allocate preferred).1 = numbered preferred (count preferred) ∧
      (r.allocate preferred).2.TakenTo names fun name =>
      count name + if preferred = name then 1 else 0 := by
  have hgiven : (r.allocate preferred).1 = numbered preferred (count preferred) :=
    freeName_eq (fun k hk => (h preferred hp k).mpr hk) (mt (h preferred hp _).mp (Nat.lt_irrefl _))
  refine ⟨hgiven, fun name hname k => ?_⟩
  change numbered name k ∈ r.usedNames ++ [(r.allocate preferred).1] ↔ _
  rw [List.mem_append, List.mem_singleton, h name hname, hgiven]
  by_cases hsame : preferred = name
  · subst hsame
    simp only [(numbered_injective preferred).eq_iff, if_true]
    omega
  · have hother : numbered name k ≠ numbered preferred (count preferred) := fun heq =>
      hsame (numbered_inj (hnames _ _ hname hp) (hnames _ _ hp hname) heq).1.symm
    simp [hother, hsame]

end Registry

/-- A name of a type ends in a letter. -/
theorem not_extendsByDigits_typeNameBase (name other : String) :
    ¬ExtendsByDigits (typeNameBase name) other := by
  rintro ⟨digits, hne, hdigits, h⟩
  have hlast : (typeNameBase name).toList.getLast? = some 'e' := by
    rw [typeNameBase, String.toList_append, List.getLast?_append_of_ne_nil _ (by decide)]
    rfl
  rw [h, String.toList_append, List.getLast?_append_of_ne_nil _ (by simpa using hne)] at hlast
  exact absurd (hdigits 'e' (List.mem_of_getLast? hlast)) (by decide)

/-! ## Names without a qualifier -/

/-- A name that does not begin like a reference. -/
def IsBare (name : String) : Prop := ¬"xs:".toList <+: name.toList ∧ ¬"tns:".toList <+: name.toList

/-- What is put behind a name does not make it begin otherwise, if the last character of the
beginning is not in it. -/
lemma prefix_of_prefix_append {beginning name behind : List Char} {last : Char}
    (h : beginning <+: name ++ behind) (hlast : beginning.getLast? = some last)
    (hmem : last ∉ behind) : beginning <+: name := by
  obtain hb | hb := List.prefix_or_prefix_of_prefix h (List.prefix_append name behind)
  · exact hb
  obtain ⟨t, rfl⟩ := hb
  have ht : t <+: behind := (List.prefix_append_right_inj name).mp h
  cases t with
  | nil => simp
  | cons c t =>
    rw [List.getLast?_append_of_ne_nil _ (by simp)] at hlast
    exact absurd (ht.subset (List.mem_of_getLast? hlast)) hmem

lemma colon_not_mem_natText (n : Nat) : ':' ∉ (Number.natText n).toList := by
  intro h
  exact absurd (Number.isDigit_of_mem_natText h) (by decide)

theorem isBare_numbered {preferred : String} (h : IsBare preferred) (k : Nat) :
    IsBare (Registry.numbered preferred k) := by
  cases k with
  | zero => exact h
  | succ k =>
    have hcolon := colon_not_mem_natText (k + 1)
    unfold Registry.numbered IsBare
    rw [String.toList_append]
    refine ⟨fun hx => h.1 ?_, fun ht => h.2 ?_⟩
    · exact prefix_of_prefix_append hx (by decide) hcolon
    · exact prefix_of_prefix_append ht (by decide) hcolon

theorem isBare_freeName {preferred : String} (h : IsBare preferred) (used : List String) :
    IsBare (Registry.freeName used preferred) := by
  obtain ⟨k, hk, -⟩ := Registry.freeName_spec used preferred
  exact hk ▸ isBare_numbered h k

/-- What is preferred for an element begins with a capital, or with the end that is put to it. -/
theorem isBare_typeNameBase (name : String) : IsBare (typeNameBase name) := by
  unfold typeNameBase IsBare
  rw [String.toList_append, Text.toList_upperFirst]
  cases name.toList with
  | nil => decide
  | cons c rest =>
    obtain ⟨u, us, hu⟩ := List.exists_cons_of_ne_nil (Text.upperOf_ne_nil c)
    obtain ⟨hx, ht⟩ := Text.ne_of_mem_upperOf (hu ▸ List.mem_cons_self : u ∈ Text.upperOf c)
    simp only [hu, List.cons_append]
    refine ⟨fun h => hx ?_, fun h => ht ?_⟩
    · exact (List.cons_prefix_cons.mp h).1.symm
    · exact (List.cons_prefix_cons.mp h).1.symm

theorem qualify_of_isBare {name : String} (h : IsBare name) (qualified : Bool) :
    qualify qualified name = if qualified then "tns:" ++ name else name := by
  have hx : name.startsWith "xs:" = false := String.startsWith_string_eq_false_iff.mpr h.1
  have ht : name.startsWith "tns:" = false := String.startsWith_string_eq_false_iff.mpr h.2
  cases qualified <;> simp [qualify, hx, ht]

/-- References to types of different names are different. -/
theorem qualify_injective {qualified : Bool} {a b : String} (ha : IsBare a) (hb : IsBare b)
    (h : qualify qualified a = qualify qualified b) : a = b := by
  rw [qualify_of_isBare ha, qualify_of_isBare hb] at h
  cases qualified with
  | false => simpa using h
  | true => simpa using h

/-- A reference to a named type is no reference to a built-in one. -/
theorem qualify_ne_reference {name : String} (h : IsBare name) (qualified : Bool) (p : Primitive) :
    qualify qualified name ≠ p.reference := by
  intro he
  have hp : "xs:".toList <+: p.reference.toList := by cases p <;> decide
  rw [← he, qualify_of_isBare h] at hp
  cases qualified with
  | false => exact h.1 (by simpa using hp)
  | true =>
    simp only [if_true, String.toList_append] at hp
    exact absurd (List.cons_prefix_cons.mp hp).1 (by decide)

/-! ## Names that a document can hold -/

lemma isLegalText_append {a b : String} (ha : Xml.isLegalText a) (hb : Xml.isLegalText b) :
    Xml.isLegalText (a ++ b) := by
  simp only [Xml.isLegalText, List.all_eq_true] at ha hb ⊢
  intro c hc
  rw [String.toList_append] at hc
  obtain hc | hc := List.mem_append.mp hc
  · exact ha c hc
  · exact hb c hc

theorem isLegalText_typeNameBase {name : String} (h : Xml.isLegalText name) :
    Xml.isLegalText (typeNameBase name) := by
  refine isLegalText_append ?_ (by decide)
  simp only [Xml.isLegalText, List.all_eq_true, Text.toList_upperFirst] at h ⊢
  intro u hu
  cases hn : name.toList with
  | nil => simp [hn] at hu
  | cons c rest =>
    rw [hn] at h hu
    obtain hu | hu := List.mem_append.mp hu
    · exact Text.isXmlChar_of_mem_upperOf (h c (by simp)) hu
    · exact h u (by simp [hu])

theorem isLegalText_qualify {name : String} (h : Xml.isLegalText name) (qualified : Bool) :
    Xml.isLegalText (qualify qualified name) := by
  unfold qualify
  split
  · exact h
  · exact isLegalText_append (by decide) h

theorem isLegalText_text (n : Int) : Xml.isLegalText (Number.text n) := by
  simp only [Xml.isLegalText, List.all_eq_true]
  intro c hc
  have hnumeral := Number.isNumeral_of_mem_text hc
  simp only [Number.isNumeral, Bool.or_eq_true, beq_iff_eq] at hnumeral
  obtain rfl | hd := hnumeral
  · decide
  · have hrange : 48 ≤ c.toNat ∧ c.toNat ≤ 57 := by
      simpa [Char.isDigit, UInt32.le_iff_toNat_le] using hd
    simp only [Xml.isXmlChar, Bool.or_eq_true, Bool.and_eq_true, beq_iff_eq, decide_eq_true_eq]
    omega

theorem isLegalText_natText (n : Nat) : Xml.isLegalText (Number.natText n) :=
  isLegalText_text (.ofNat n)

theorem isLegalText_freeName {preferred : String} (h : Xml.isLegalText preferred)
    (used : List String) : Xml.isLegalText (Registry.freeName used preferred) := by
  obtain ⟨k, hk, -⟩ := Registry.freeName_spec used preferred
  rw [hk]
  cases k with
  | zero => exact h
  | succ k => exact isLegalText_append h (isLegalText_natText _)

/-! ## Names without a colon -/

lemma isNameChar_of_mem {cs : List Char} (h : Xml.isPlainName cs = true) :
    ∀ c ∈ cs, Xml.isNameChar c = true := by
  cases cs with
  | nil => cases h
  | cons c rest =>
    obtain ⟨hstart, hrest⟩ := Bool.and_eq_true_iff.mp h
    refine List.forall_mem_cons.mpr ⟨?_, List.all_eq_true.mp hrest⟩
    simp [Xml.isNameChar, hstart]

lemma isPlainName_append {cs ds : List Char} (hcs : Xml.isPlainName cs = true)
    (hds : ∀ c ∈ ds, Xml.isNameChar c = true) : Xml.isPlainName (cs ++ ds) = true := by
  cases cs with
  | nil => cases hcs
  | cons c rest =>
    obtain ⟨hstart, hrest⟩ := Bool.and_eq_true_iff.mp hcs
    simp only [List.cons_append, Xml.isPlainName, hstart, List.all_append, hrest, Bool.true_and]
    exact List.all_eq_true.mpr hds

theorem isPlainNameText_typeNameBase {name : String} (h : Xml.isPlainNameText name) :
    Xml.isPlainNameText (typeNameBase name) := by
  have hend : ∀ c ∈ "Type".toList, Xml.isNameChar c = true := List.all_eq_true.mp (by decide)
  unfold Xml.isPlainNameText at h ⊢
  rw [typeNameBase, String.toList_append, Text.toList_upperFirst]
  cases hname : name.toList with
  | nil =>
    rw [hname] at h
    cases h
  | cons c rest =>
    rw [hname] at h
    obtain ⟨hstart, hrest⟩ := Bool.and_eq_true_iff.mp h
    exact isPlainName_append (isPlainName_append (Text.isPlainName_upperOf hstart)
      (List.all_eq_true.mp hrest)) hend

theorem isPlainNameText_numbered {preferred : String}
    (h : Xml.isPlainNameText preferred) (k : Nat) :
    Xml.isPlainNameText (Registry.numbered preferred k) := by
  cases k with
  | zero => exact h
  | succ k =>
    unfold Registry.numbered Xml.isPlainNameText
    rw [String.toList_append]
    refine isPlainName_append h fun c hc => ?_
    simp [Xml.isNameChar, Number.isDigit_of_mem_natText hc]

end SchemaLoom.Xsd
