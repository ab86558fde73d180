import SchemaLoom.Json.Reader
import SchemaLoom.Proofs.Json.Line
import SchemaLoom.Proofs.Json.Members

/-! A value that is laid out on lines is read back as it was, numbers and words apart. -/
namespace SchemaLoom.Json

/-! ## Texts -/

lemma hexDigit_digitChar : ∀ a < 16, hexDigit? a.digitChar = some a := by decide

lemma unit_digits {n : Nat} (h : n < 0x10000) :
    unit? (n / 0x1000).digitChar (n / 0x100 % 16).digitChar (n / 16 % 16).digitChar
      (n % 16).digitChar = some n := by
  have hn : (((n / 0x1000) * 16 + n / 0x100 % 16) * 16 + n / 16 % 16) * 16 + n % 16 = n := by omega
  simp only [unit?, hexDigit_digitChar _ (show n / 0x1000 < 16 by omega),
    hexDigit_digitChar _ (show n / 0x100 % 16 < 16 by omega),
    hexDigit_digitChar _ (show n / 16 % 16 < 16 by omega),
    hexDigit_digitChar _ (show n % 16 < 16 by omega)]
  exact congrArg some hn

/-- What is written as it is can be seen. -/
lemma visible_of_plain {c : Char} (h : stringChar c = [c]) : 32 ≤ c.toNat := by
  by_contra hlt
  have hn : c.toNat < 0x10000 := by omega
  unfold stringChar at h
  simp only [unitEscape_eq hn] at h
  split_ifs at h <;> simp_all
  omega

section
variable {start fuel : Nat} {rest : List Char}

/-- One more character in front of what is read from a text. -/
def withChar (c : Char) (r : Except Fault (List Char × List Char)) :
    Except Fault (List Char × List Char) :=
  r.map fun (text, after) => (c :: text, after)

lemma stringFrom_plain {c : Char} (hquote : c ≠ '"') (hslash : c ≠ '\\') (h : 32 ≤ c.toNat) :
    stringFrom start (fuel + 1) (c :: rest) = withChar c (stringFrom start fuel rest) := by
  rw [stringFrom, if_neg (Nat.not_lt.mpr h)]
  · rfl
  · exact hquote
  all_goals simp [hslash]

lemma stringFrom_short {e c : Char} (h : (e, c) ∈ shortEscapes) :
    stringFrom start (fuel + 1) ('\\' :: e :: rest) = withChar c (stringFrom start fuel rest) := by
  simp only [shortEscapes, List.mem_cons, Prod.mk.injEq, List.not_mem_nil, or_false] at h
  obtain ⟨rfl, rfl⟩ | ⟨rfl, rfl⟩ | ⟨rfl, rfl⟩ | ⟨rfl, rfl⟩ | ⟨rfl, rfl⟩ | ⟨rfl, rfl⟩ | ⟨rfl, rfl⟩ :=
    h <;>
    rfl

lemma stringFrom_unit {n : Nat} {d : Char} (hn : n < 0x10000) (hs : n < 0xd800 ∨ 0xdfff < n) :
    stringFrom start (fuel + 1) (unitEscape n ++ d :: rest) =
      withChar (Char.ofNat n) (stringFrom start fuel (d :: rest)) := by
  have hhigh : (decide (0xd800 ≤ n) && decide (n < 0xdc00)) = false := by
    simp only [Bool.and_eq_false_iff, decide_eq_false_iff_not]
    omega
  have hchar : unitChar n = Char.ofNat n := by
    unfold unitChar
    rw [if_neg (by simp; omega)]
  rw [unitEscape_eq hn]
  simp only [List.cons_append, List.nil_append, stringFrom, unit_digits hn, hhigh, hchar]
  rfl

lemma stringFrom_pair {m : Nat} {d : Char} (hm : m < 0x100000) :
    stringFrom start (fuel + 1)
        (unitEscape (0xd800 + m / 0x400) ++ (unitEscape (0xdc00 + m % 0x400) ++ d :: rest)) =
      withChar (Char.ofNat (0x10000 + m)) (stringFrom start fuel (d :: rest)) := by
  have hhigh : 0xd800 + m / 0x400 < 0x10000 := by omega
  have hlow : 0xdc00 + m % 0x400 < 0x10000 := by omega
  have hunit := unit_digits hhigh
  have hunit' := unit_digits hlow
  have hvalue : 0x10000 + (0xd800 + m / 0x400 - 0xd800) * 0x400 + (0xdc00 + m % 0x400 - 0xdc00) =
      0x10000 + m := by omega
  have hrange : (decide (0xd800 ≤ 0xd800 + m / 0x400) && decide (0xd800 + m / 0x400 < 0xdc00)) =
      true := by
    simp only [Bool.and_eq_true, decide_eq_true_eq]
    omega
  have hrange' : (decide (0xdc00 ≤ 0xdc00 + m % 0x400) && decide (0xdc00 + m % 0x400 < 0xe000)) =
      true := by
    simp only [Bool.and_eq_true, decide_eq_true_eq]
    omega
  rw [unitEscape_eq hhigh, unitEscape_eq hlow]
  generalize 0xd800 + m / 0x400 = high at *
  generalize 0xdc00 + m % 0x400 = low at *
  simp only [List.cons_append, List.nil_append, stringFrom, pairedUnit?, hunit, hunit',
    hrange, hrange', if_true, hvalue]
  rfl

/-- A character is read from its spelling, which something follows. -/
theorem stringFrom_char (c : Char) (hrest : rest ≠ []) :
    stringFrom start (fuel + 1) (stringChar c ++ rest) =
    withChar c (stringFrom start fuel rest) := by
  obtain ⟨d, ds, rfl⟩ := List.exists_cons_of_ne_nil hrest
  have hlt := toNat_lt c
  cases spelled c with
  | plain h hquote hslash =>
    rw [h]
    exact stringFrom_plain hquote hslash (visible_of_plain h)
  | short e he h =>
    rw [h]
    exact stringFrom_short he
  | unit hsmall h =>
    rw [h, stringFrom_unit hsmall (by have := not_surrogate c; omega), Char.ofNat_toNat]
  | pair hlarge h =>
    rw [h, List.append_assoc, stringFrom_pair (by omega), Nat.add_sub_cancel' hlarge,
      Char.ofNat_toNat]

theorem stringFrom_spelling {cs : List Char} (h : cs.length < fuel) :
    stringFrom start fuel (cs.flatMap stringChar ++ '"' :: rest) = .ok (cs, rest) := by
  induction cs generalizing fuel with
  | nil =>
    obtain ⟨fuel, rfl⟩ := Nat.exists_eq_add_one_of_ne_zero (Nat.ne_zero_of_lt h)
    rfl
  | cons c cs ih =>
    obtain ⟨fuel, rfl⟩ := Nat.exists_eq_add_one_of_ne_zero (Nat.ne_zero_of_lt h)
    rw [List.flatMap_cons, List.append_assoc, stringFrom_char c (by simp),
      ih (Nat.lt_of_succ_lt_succ h)]
    rfl

lemma length_le_spelling (cs : List Char) : cs.length ≤ (cs.flatMap stringChar).length := by
  induction cs with
  | nil => exact Nat.le_refl 0
  | cons c cs ih =>
    obtain ⟨a, more, h, -⟩ := stringChar_cons c
    simp only [List.flatMap_cons, List.length_append, List.length_cons, h]
    omega

/-- A text is read from its quotes. -/
lemma stringFrom_writeString (s : String) (rest : List Char) : ∃ inner,
    writeString s ++ rest = '"' :: inner ∧
      ∀ start, stringFrom start ('"' :: inner).length inner = .ok (s.toList, rest) := by
  refine ⟨s.toList.flatMap stringChar ++ '"' :: rest, by simp [writeString], fun start => ?_⟩
  apply stringFrom_spelling
  have := length_le_spelling s.toList
  simp only [List.length_cons, List.length_append]
  omega

end

/-! ## Layout -/

/-- A value of texts, lists and objects that have each of their names once. -/
inductive Legible : Value → Prop
  | string (s : String) : Legible (.string s)
  | array {items : List Value} (h : ∀ v ∈ items, Legible v) : Legible (.array items)
  | object {members : List (String × Value)} (hnames : (members.map Prod.fst).Nodup)
    (h : ∀ m ∈ members, Legible m.2) : Legible (.object members)

/-- A value is read from its layout, at whatever level and whatever follows. -/
def Reads (v : Value) : Prop :=
  ∀ level fuel rest, (v.layOut level).length ≤ fuel →
    valueFrom fuel (v.layOut level ++ rest) = .ok (v, rest)

/-- A value opens with a quote or a bracket: with no blank, no closing bracket and no mark of
octets. -/
lemma layOut_cons {v : Value} (h : Legible v) (level : Nat) : ∃ c cs, v.layOut level = c :: cs ∧
    isBlank c = false ∧ c ≠ ']' ∧ (c.toNat == 0xfeff) = false := by
  cases h with
  | string s => exact ⟨'"', _, rfl, by decide, by decide, by decide⟩
  | @array items h => cases items <;> exact ⟨'[', _, rfl, by decide, by decide, by decide⟩
  | @object members hnames h =>
    cases members <;> exact ⟨'\x7b', _, rfl, by decide, by decide, by decide⟩

lemma skipBlanks_newLine (level : Nat) (cs : List Char) :
    skipBlanks (newLine level ++ cs) = skipBlanks cs := by
  apply List.dropWhile_append_of_pos
  intro c hc
  obtain rfl | hc := List.mem_cons.mp hc
  · rfl
  · rw [(List.mem_replicate.mp hc).2]
    rfl

lemma skipBlanks_mark {c : Char} (h : isBlank c = false) (cs : List Char) :
    skipBlanks (c :: cs) = c :: cs := by
  simp [skipBlanks, h]

lemma skipBlanks_writeString (s : String) (cs : List Char) :
    skipBlanks (writeString s ++ cs) = writeString s ++ cs :=
  skipBlanks_mark (by decide) _

lemma skipBlanks_layOut {v : Value} (h : Legible v) (level : Nat) (cs : List Char) :
    skipBlanks (v.layOut level ++ cs) = v.layOut level ++ cs := by
  obtain ⟨c, more, hlay, hblank, -⟩ := layOut_cons h level
  rw [hlay]
  exact skipBlanks_mark hblank _

section
variable {level fuel : Nat}

lemma length_layOutItems (first : Bool) (v : Value) (items : List Value) :
    (layOutItems level first (v :: items)).length =
      (if first then 0 else 1) + (4 * level + 1) + (v.layOut level).length +
        (layOutItems level false items).length := by
  cases first <;> simp [layOutItems, newLine] <;> omega

lemma length_layOutMembers (first : Bool) (m : String × Value) (members : List (String × Value)) :
    (layOutMembers level first (m :: members)).length =
      (if first then 0 else 1) + (4 * level + 1) + (writeString m.1).length + 2 +
        (m.2.layOut level).length + (layOutMembers level false members).length := by
  cases first <;> simp [layOutMembers, newLine] <;> omega

lemma itemsFrom_layOut (below : Nat) (rest : List Char) {v : Value} {items : List Value}
    (h : ∀ w ∈ v :: items, Legible w ∧ Reads w)
    (hfuel : (layOutItems level true (v :: items)).length ≤ fuel) :
    itemsFrom fuel (v.layOut level ++
    (layOutItems level false items ++ (newLine below ++ ']' :: rest))) =
      .ok (v :: items, rest) := by
  induction items generalizing v fuel with
  | nil =>
    rw [length_layOutItems] at hfuel
    obtain ⟨fuel, rfl⟩ := Nat.exists_eq_add_one_of_ne_zero (show fuel ≠ 0 by omega)
    have hv := (h v List.mem_cons_self).2 level fuel (newLine below ++ ']' :: rest) (by omega)
    have hend : skipBlanks (newLine below ++ ']' :: rest) = ']' :: rest := by
      rw [skipBlanks_newLine, skipBlanks_mark (by decide)]
    simp only [itemsFrom, layOutItems, List.nil_append, hv, bind, Except.bind, hend]
  | cons w items ih =>
    rw [length_layOutItems, length_layOutItems] at hfuel
    obtain ⟨fuel, rfl⟩ := Nat.exists_eq_add_one_of_ne_zero (show fuel ≠ 0 by omega)
    have hw := h w (List.mem_cons_of_mem _ List.mem_cons_self)
    have hv := (h v List.mem_cons_self).2 level fuel
      (layOutItems level false (w :: items) ++ (newLine below ++ ']' :: rest)) (by omega)
    have hcomma :
        skipBlanks (layOutItems level false (w :: items) ++ (newLine below ++ ']' :: rest)) =
        ',' :: (newLine level ++ (w.layOut level ++
          (layOutItems level false items ++ (newLine below ++ ']' :: rest)))) := by
      simp [layOutItems, skipBlanks_mark (show isBlank ',' = false by decide)]
    have hlength : (layOutItems level true (w :: items)).length ≤ fuel := by
      rw [length_layOutItems]
      simp only [if_true, Bool.false_eq_true, if_false] at hfuel ⊢
      omega
    have hmore := ih (fun u hu => h u (List.mem_cons_of_mem _ hu)) hlength
    simp only [itemsFrom, hv, bind, Except.bind, hcomma, skipBlanks_newLine,
      skipBlanks_layOut hw.1, hmore]

lemma membersFrom_layOut (below : Nat) (rest : List Char) {name : String} {v : Value}
    {members : List (String × Value)}
    (h : ∀ m ∈ (name, v) :: members, Legible m.2 ∧ Reads m.2)
    (hfuel : (layOutMembers level true ((name, v) :: members)).length ≤ fuel) :
    membersFrom fuel (writeString name ++ (':' :: ' ' :: (v.layOut level ++
      (layOutMembers level false members ++ (newLine below ++ '\x7d' :: rest))))) =
      .ok ((name, v) :: members, rest) := by
  have hcolon : isBlank ':' = false := by decide
  have hblank (cs : List Char) : skipBlanks (' ' :: cs) = skipBlanks cs := rfl
  induction members generalizing name v fuel with
  | nil =>
    rw [length_layOutMembers] at hfuel
    obtain ⟨fuel, rfl⟩ := Nat.exists_eq_add_one_of_ne_zero (show fuel ≠ 0 by omega)
    obtain ⟨hlegible, hreads⟩ := h _ List.mem_cons_self
    have hv := hreads level fuel (newLine below ++ '\x7d' :: rest) (by simp only at hfuel ⊢; omega)
    have hend : skipBlanks (newLine below ++ '\x7d' :: rest) = '\x7d' :: rest := by
      rw [skipBlanks_newLine, skipBlanks_mark (by decide)]
    obtain ⟨inner, hinner, hname⟩ := stringFrom_writeString name (':' :: ' ' :: (v.layOut level ++
      (layOutMembers level false [] ++ (newLine below ++ '\x7d' :: rest))))
    rw [hinner, membersFrom]
    simp only [hname, bind, Except.bind, skipBlanks_mark hcolon, hblank, skipBlanks_layOut hlegible,
      layOutMembers, List.nil_append, hv, hend, String.ofList_toList]
  | cons m members ih =>
    rw [length_layOutMembers, length_layOutMembers] at hfuel
    obtain ⟨fuel, rfl⟩ := Nat.exists_eq_add_one_of_ne_zero (show fuel ≠ 0 by omega)
    obtain ⟨other, w⟩ := m
    obtain ⟨hlegible, hreads⟩ := h _ List.mem_cons_self
    have hv := hreads level fuel
      (layOutMembers level false ((other, w) :: members) ++ (newLine below ++ '\x7d' :: rest))
      (by simp only at hfuel ⊢; omega)
    have hcomma : skipBlanks (layOutMembers level false ((other, w) :: members) ++
        (newLine below ++ '\x7d' :: rest)) =
        ',' :: (newLine level ++ (writeString other ++ (':' :: ' ' :: (w.layOut level ++
          (layOutMembers level false members ++ (newLine below ++ '\x7d' :: rest)))))) := by
      simp [layOutMembers, skipBlanks_mark (show isBlank ',' = false by decide)]
    have hlength : (layOutMembers level true ((other, w) :: members)).length ≤ fuel := by
      rw [length_layOutMembers]
      simp only [if_true, Bool.false_eq_true, if_false] at hfuel ⊢
      omega
    have hmore := ih (fun u hu => h u (List.mem_cons_of_mem _ hu)) hlength
    obtain ⟨inner, hinner, hname⟩ := stringFrom_writeString name (':' :: ' ' :: (v.layOut level ++
      (layOutMembers level false ((other, w) :: members) ++ (newLine below ++ '\x7d' :: rest))))
    rw [hinner, membersFrom]
    simp only [hname, bind, Except.bind, skipBlanks_mark hcolon, hblank, skipBlanks_layOut hlegible,
      hv, hcomma, skipBlanks_newLine, skipBlanks_writeString, hmore, String.ofList_toList]

lemma reads_string (s : String) : Reads (.string s) := by
  intro level fuel rest hfuel
  have hpos : 0 < ((Value.string s).layOut level).length := by
    simp [Value.layOut, writeAtom, writeString]
  obtain ⟨fuel, rfl⟩ := Nat.exists_eq_add_one_of_ne_zero (show fuel ≠ 0 by omega)
  obtain ⟨inner, hinner, htext⟩ := stringFrom_writeString s rest
  change valueFrom (fuel + 1) (writeString s ++ rest) = _
  rw [hinner, valueFrom, htext]
  simp only [Except.map, String.ofList_toList]

lemma reads_array {items : List Value} (h : ∀ w ∈ items, Legible w ∧ Reads w) :
    Reads (.array items) := by
  intro level fuel rest hfuel
  cases items with
  | nil =>
    obtain ⟨fuel, rfl⟩ :=
      Nat.exists_eq_add_one_of_ne_zero (show fuel ≠ 0 by rintro rfl; cases hfuel)
    change valueFrom (fuel + 1) ('[' :: ']' :: rest) = _
    rw [valueFrom, skipBlanks_mark (by decide)]
    rfl
  | cons v items =>
    have hlay : (Value.array (v :: items)).layOut level ++ rest =
        '[' :: (newLine (level + 1) ++ (v.layOut (level + 1) ++
          (layOutItems (level + 1) false items ++ (newLine level ++ ']' :: rest)))) := by
      simp [Value.layOut, layOutItems]
    have hlength : (layOutItems (level + 1) true (v :: items)).length + 1 ≤ fuel := by
      simp only [Value.layOut, List.length_append, List.length_cons] at hfuel
      omega
    obtain ⟨fuel, rfl⟩ := Nat.exists_eq_add_one_of_ne_zero (show fuel ≠ 0 by omega)
    have hitems := itemsFrom_layOut level rest h (Nat.le_of_succ_le_succ hlength)
    have hlegible := (h v List.mem_cons_self).1
    rw [hlay, valueFrom, skipBlanks_newLine, skipBlanks_layOut hlegible]
    split
    · -- a value does not open with the bracket that closes the array
      rename_i heq
      obtain ⟨c, cs, hc, -, hclose, -⟩ := layOut_cons hlegible (level + 1)
      rw [hc] at heq
      cases heq
      exact absurd rfl hclose
    · rw [hitems]
      rfl

lemma reads_object {members : List (String × Value)} (hnames : (members.map Prod.fst).Nodup)
    (h : ∀ m ∈ members, Legible m.2 ∧ Reads m.2) : Reads (.object members) := by
  intro level fuel rest hfuel
  cases members with
  | nil =>
    obtain ⟨fuel, rfl⟩ :=
      Nat.exists_eq_add_one_of_ne_zero (show fuel ≠ 0 by rintro rfl; cases hfuel)
    change valueFrom (fuel + 1) ('\x7b' :: '\x7d' :: rest) = _
    rw [valueFrom, skipBlanks_mark (by decide)]
    rfl
  | cons m members =>
    obtain ⟨name, v⟩ := m
    have hlay : (Value.object ((name, v) :: members)).layOut level ++ rest =
        '\x7b' :: (newLine (level + 1) ++
          (writeString name ++ (':' :: ' ' :: (v.layOut (level + 1) ++
          (layOutMembers (level + 1) false members ++ (newLine level ++ '\x7d' :: rest)))))) := by
      simp [Value.layOut, layOutMembers]
    have hlength : (layOutMembers (level + 1) true ((name, v) :: members)).length + 1 ≤ fuel := by
      simp only [Value.layOut, List.length_append, List.length_cons] at hfuel
      omega
    obtain ⟨fuel, rfl⟩ := Nat.exists_eq_add_one_of_ne_zero (show fuel ≠ 0 by omega)
    have hmembers := membersFrom_layOut level rest h (Nat.le_of_succ_le_succ hlength)
    rw [hlay, valueFrom, skipBlanks_newLine, skipBlanks_writeString]
    split
    · rename_i heq
      cases heq
    · rw [hmembers]
      simp only [Except.map, ofMembers_eq_self hnames]

/-- What is laid out is read back as it was. -/
theorem reads_of_legible {v : Value} (h : Legible v) : Reads v := by
  induction h with
  | string s => exact reads_string s
  | array h ih => exact reads_array fun w hw => ⟨h w hw, ih w hw⟩
  | object hnames h ih => exact reads_object hnames fun m hm => ⟨h m hm, ih m hm⟩

/-- A value is the only one that its layout is read as. -/
theorem ofChars_layOut {v : Value} (h : Legible v) : ofChars (v.layOut 0) = .ok v := by
  obtain ⟨c, cs, hc, -, -, hmark⟩ := layOut_cons h 0
  have hread := reads_of_legible h 0 (2 * (v.layOut 0).length + 2) [] (by omega)
  have hskip := skipBlanks_layOut h 0 []
  rw [List.append_nil] at hread hskip
  unfold ofChars
  rw [hskip, hread]
  simp only [hc, List.head?_cons, Option.any_some, hmark]
  rfl

end

/-! ## Ends of lines -/

lemma return_not_mem_unitEscape {n : Nat} (h : n < 0x10000) : '\r' ∉ unitEscape n := by
  have hdigit : ∀ d < 16, '\r' ≠ Nat.digitChar d := by decide
  rw [unitEscape_eq h]
  simp only [List.mem_cons, List.not_mem_nil, or_false, not_or]
  exact ⟨by decide, by decide, hdigit _ (by omega), hdigit _ (by omega), hdigit _ (by omega),
    hdigit _ (by omega)⟩

lemma return_not_mem_stringChar (c : Char) : '\r' ∉ stringChar c := by
  have hlt := toNat_lt c
  cases spelled c with
  | plain h _ _ =>
    have hvisible := visible_of_plain h
    rw [h, List.mem_singleton]
    rintro rfl
    exact absurd hvisible (by decide)
  | short e he h =>
    have hletter : ∀ p ∈ shortEscapes, '\r' ∉ ['\\', p.1] := by decide
    rw [h]
    exact hletter _ he
  | unit hsmall h =>
    rw [h]
    exact return_not_mem_unitEscape hsmall
  | pair hlarge h =>
    rw [h, List.mem_append, not_or]
    exact ⟨return_not_mem_unitEscape (by omega), return_not_mem_unitEscape (by omega)⟩

lemma return_not_mem_writeString (s : String) : '\r' ∉ writeString s := by
  simp [writeString, return_not_mem_stringChar]

lemma return_not_mem_newLine (level : Nat) : '\r' ∉ newLine level := by
  simp [newLine]

lemma return_not_mem_items {level : Nat} {first : Bool} {items : List Value}
    (h : ∀ v ∈ items, '\r' ∉ v.layOut level) : '\r' ∉ layOutItems level first items := by
  induction items generalizing first with
  | nil => simp [layOutItems]
  | cons v items ih =>
    obtain ⟨hv, hitems⟩ := List.forall_mem_cons.mp h
    cases first <;> simp [layOutItems, return_not_mem_newLine, hv, ih hitems]

lemma return_not_mem_members {level : Nat} {first : Bool} {members : List (String × Value)}
    (h : ∀ m ∈ members, '\r' ∉ m.2.layOut level) : '\r' ∉ layOutMembers level first members := by
  induction members generalizing first with
  | nil => simp [layOutMembers]
  | cons m members ih =>
    obtain ⟨hm, hmembers⟩ := List.forall_mem_cons.mp h
    cases first <;>
      simp [layOutMembers, return_not_mem_newLine, return_not_mem_writeString, hm, ih hmembers]

/-- The only ends of lines in a layout are line feeds. -/
theorem return_not_mem_layOut {v : Value} (h : Legible v) (level : Nat) :
    '\r' ∉ v.layOut level := by
  induction h generalizing level with
  | string s => exact return_not_mem_writeString s
  | @array items _ ih =>
    cases items with
    | nil => simp [Value.layOut]
    | cons v items =>
      simp [Value.layOut, return_not_mem_newLine,
        return_not_mem_items fun v hv => ih v hv (level + 1)]
  | @object members _ _ ih =>
    cases members with
    | nil => simp [Value.layOut]
    | cons m members =>
      simp [Value.layOut, return_not_mem_newLine,
        return_not_mem_members fun m hm => ih m hm (level + 1)]

end SchemaLoom.Json
