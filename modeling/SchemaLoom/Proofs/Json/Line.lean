import SchemaLoom.Json.Writer
import SchemaLoom.Proofs.Number.Decimal

/-! The text of a value on one line determines the value, fractions apart: the text is a prefix code
as soon as a mark of punctuation or nothing follows it. -/
namespace SchemaLoom.Json

lemma digitChar_inj : ∀ a < 16, ∀ b < 16, Nat.digitChar a = Nat.digitChar b → a = b := by decide

lemma unitEscape_eq {n : Nat} (h : n < 0x10000) :
    unitEscape n = ['\\', 'u', (n / 0x1000).digitChar, (n / 0x100 % 16).digitChar,
      (n / 16 % 16).digitChar, (n % 16).digitChar] := by
  have hzero : Nat.digitChar 0 = '0' := rfl
  have hone (m : Nat) (hm : m < 16) : Nat.toDigits 16 m = [m.digitChar] :=
    Nat.toDigits_of_lt_base hm
  have hmore (m : Nat) (hm : 16 ≤ m) :
      Nat.toDigits 16 m = Nat.toDigits 16 (m / 16) ++ [(m % 16).digitChar] :=
    Nat.toDigits_of_base_le (by decide) hm
  unfold unitEscape
  by_cases h1 : n < 16
  · rw [hone n h1]
    simp [List.replicate, show n / 0x1000 = 0 by omega, show n / 0x100 = 0 by omega,
      show n / 16 = 0 by omega, Nat.mod_eq_of_lt h1, hzero]
  by_cases h2 : n < 0x100
  · rw [hmore n (by omega), hone (n / 16) (by omega)]
    simp [List.replicate, show n / 0x1000 = 0 by omega, show n / 0x100 = 0 by omega,
      Nat.mod_eq_of_lt (show n / 16 < 16 by omega), hzero]
  by_cases h3 : n < 0x1000
  · rw [hmore n (by omega), hmore (n / 16) (by omega), Nat.div_div_eq_div_mul,
      hone (n / 0x100) (by omega)]
    simp [show n / 0x1000 = 0 by omega, Nat.mod_eq_of_lt (show n / 0x100 < 16 by omega), hzero]
  · rw [hmore n (by omega), hmore (n / 16) (by omega), Nat.div_div_eq_div_mul,
      hmore (n / (16 * 16)) (by omega), Nat.div_div_eq_div_mul,
      hone (n / (16 * 16 * 16)) (by omega)]
    simp

lemma unitEscape_append {m n : Nat} (hm : m < 0x10000) (hn : n < 0x10000) {x y : List Char}
    (h : unitEscape m ++ x = unitEscape n ++ y) : m = n ∧ x = y := by
  rw [unitEscape_eq hm, unitEscape_eq hn] at h
  simp only [List.cons_append, List.nil_append, List.cons.injEq, true_and] at h
  obtain ⟨h1, h2, h3, h4, hxy⟩ := h
  have e1 := digitChar_inj _ (by omega) _ (by omega) h1
  have e2 := digitChar_inj _ (by omega) _ (by omega) h2
  have e3 := digitChar_inj _ (by omega) _ (by omega) h3
  have e4 := digitChar_inj _ (by omega) _ (by omega) h4
  exact ⟨by omega, hxy⟩

/-- The letters of short escapes, with the characters they stand for. -/
def shortEscapes : List (Char × Char) :=
  [('"', '"'), ('\\', '\\'), ('n', '\n'), ('r', '\r'), ('t', '\t'), ('f', Char.ofNat 12),
    ('b', Char.ofNat 8)]

/-- How a character is spelled: as it is, by a short escape, by one unit or by two. -/
inductive Spelled (c : Char) : Prop where
  | plain (h : stringChar c = [c]) (quote : c ≠ '"') (slash : c ≠ '\\')
  | short (e : Char) (mem : (e, c) ∈ shortEscapes) (h : stringChar c = ['\\', e])
  | unit (small : c.toNat < 0x10000) (h : stringChar c = unitEscape c.toNat)
  | pair (large : 0x10000 ≤ c.toNat)
    (h : stringChar c = unitEscape (0xd800 + (c.toNat - 0x10000) / 0x400) ++
      unitEscape (0xdc00 + (c.toNat - 0x10000) % 0x400))

lemma toNat_lt (c : Char) : c.toNat < 0x110000 := by
  have := c.valid
  unfold UInt32.isValidChar Nat.isValidChar at this
  unfold Char.toNat
  omega

lemma not_surrogate (c : Char) : c.toNat < 0xd800 ∨ 0xdfff < c.toNat := by
  have := c.valid
  unfold UInt32.isValidChar Nat.isValidChar at this
  unfold Char.toNat
  omega

lemma spelled (c : Char) : Spelled c := by
  have hn (k : Nat) (h : c.toNat = k) : c = Char.ofNat k := by rw [← h, Char.ofNat_toNat]
  by_cases h1 : c = '"'
  · subst h1; exact .short '"' (by decide) rfl
  by_cases h2 : c = '\\'
  · subst h2; exact .short '\\' (by decide) rfl
  by_cases h3 : c = '\n'
  · subst h3; exact .short 'n' (by decide) rfl
  by_cases h4 : c = '\r'
  · subst h4; exact .short 'r' (by decide) rfl
  by_cases h5 : c = '\t'
  · subst h5; exact .short 't' (by decide) rfl
  by_cases h6 : c.toNat = 12
  · obtain rfl := hn 12 h6; exact .short 'f' (by decide) (by decide)
  by_cases h7 : c.toNat = 8
  · obtain rfl := hn 8 h7; exact .short 'b' (by decide) (by decide)
  by_cases h8 : 32 ≤ c.toNat ∧ c.toNat ≤ 126
  · exact .plain (by simp [stringChar, h1, h2, h3, h4, h5, h6, h7, h8]) h1 h2
  by_cases h9 : c.toNat < 0x10000
  · exact .unit h9 (by simp [stringChar, h1, h2, h3, h4, h5, h6, h7, h8, h9])
  · exact .pair (by omega) (by simp [stringChar, h1, h2, h3, h4, h5, h6, h7, h8, h9])

lemma unit_ne_short {n : Nat} {e c : Char} (hn : n < 0x10000) (he : (e, c) ∈ shortEscapes)
    {x y : List Char} : unitEscape n ++ x ≠ '\\' :: e :: y := by
  intro h
  rw [unitEscape_eq hn] at h
  simp only [List.cons_append, List.cons.injEq, true_and] at h
  obtain ⟨rfl, -⟩ := h
  simp [shortEscapes] at he

lemma unit_ne_plain {n : Nat} {c : Char} (hc : c ≠ '\\') {x y : List Char} :
    unitEscape n ++ x ≠ c :: y := by
  intro h
  simp only [unitEscape, List.cons_append, List.cons.injEq] at h
  exact hc h.1.symm

lemma short_unique {e c d : Char} (hc : (e, c) ∈ shortEscapes) (hd : (e, d) ∈ shortEscapes) :
    c = d := by
  simp only [shortEscapes, List.mem_cons, Prod.mk.injEq, List.not_mem_nil, or_false] at hc hd
  obtain ⟨rfl, rfl⟩ | ⟨rfl, rfl⟩ | ⟨rfl, rfl⟩ | ⟨rfl, rfl⟩ | ⟨rfl, rfl⟩ | ⟨rfl, rfl⟩ | ⟨rfl, rfl⟩ :=
    hc <;>
    simpa [eq_comm] using hd

lemma plain_append {c d : Char} (hc : c ≠ '\\') {x y : List Char} (h : c :: x = stringChar d ++ y) :
    c = d ∧ x = y := by
  cases spelled d with
  | plain hd _ _ => simpa [hd] using h
  | short e _ hd =>
    simp only [hd, List.cons_append, List.cons.injEq] at h
    exact absurd h.1 hc
  | unit _ hd =>
    rw [hd] at h
    exact absurd h.symm (unit_ne_plain hc)
  | pair _ hd =>
    rw [hd, List.append_assoc] at h
    exact absurd h.symm (unit_ne_plain hc)

lemma short_append {e c d : Char} (hc : (e, c) ∈ shortEscapes) {x y : List Char}
    (h : '\\' :: e :: x = stringChar d ++ y) : c = d ∧ x = y := by
  cases spelled d with
  | plain hd _ hslash =>
    simp only [hd, List.cons_append, List.cons.injEq] at h
    exact absurd h.1.symm hslash
  | short e' hd hspell =>
    simp only [hspell, List.cons_append, List.nil_append, List.cons.injEq, true_and] at h
    obtain ⟨rfl, hxy⟩ := h
    exact ⟨short_unique hc hd, hxy⟩
  | unit hsmall hd =>
    rw [hd] at h
    exact absurd h.symm (unit_ne_short hsmall hc)
  | pair hlarge hd =>
    have hlt := toNat_lt d
    rw [hd, List.append_assoc] at h
    exact absurd h.symm (unit_ne_short (by omega) hc)

/-- A unit that a character's spelling begins with is all of it, or the first of two. -/
lemma unit_append {n : Nat} (hn : n < 0x10000) {d : Char} {x y : List Char}
    (h : unitEscape n ++ x = stringChar d ++ y) :
    d.toNat = n ∧ x = y ∨ 0x10000 ≤ d.toNat ∧ n = 0xd800 + (d.toNat - 0x10000) / 0x400 ∧
      x = unitEscape (0xdc00 + (d.toNat - 0x10000) % 0x400) ++ y := by
  cases spelled d with
  | plain hd _ hslash =>
    rw [hd] at h
    exact absurd h (unit_ne_plain hslash)
  | short e he hd =>
    rw [hd] at h
    exact absurd h (unit_ne_short hn he)
  | unit hsmall hd =>
    rw [hd] at h
    obtain ⟨hunit, hxy⟩ := unitEscape_append hn hsmall h
    exact .inl ⟨hunit.symm, hxy⟩
  | pair hlarge hd =>
    have hlt := toNat_lt d
    rw [hd, List.append_assoc] at h
    obtain ⟨hunit, hxy⟩ := unitEscape_append hn (by omega) h
    exact .inr ⟨hlarge, hunit, hxy⟩

/-- No character's spelling begins another's. -/
theorem stringChar_append {c d : Char} {x y : List Char}
    (h : stringChar c ++ x = stringChar d ++ y) :
    c = d ∧ x = y := by
  have hlt := toNat_lt c
  have hltd := toNat_lt d
  -- The first unit of a pair is a surrogate, which no character is.
  have hc := not_surrogate c
  have hd := not_surrogate d
  cases spelled c with
  | plain hspell _ hslash =>
    rw [hspell] at h
    exact plain_append hslash h
  | short e he hspell =>
    rw [hspell] at h
    exact short_append he h
  | unit hsmall hspell =>
    rw [hspell] at h
    obtain ⟨hunit, hxy⟩ | ⟨hlarge, hunit, -⟩ := unit_append hsmall h
    · exact ⟨(Char.toNat_inj.mp hunit).symm, hxy⟩
    · omega
  | pair hlarge hspell =>
    rw [hspell, List.append_assoc] at h
    obtain ⟨hunit, -⟩ | ⟨hlarged, hhigh, hrest⟩ := unit_append (by omega) h
    · omega
    · obtain ⟨hlow, hxy⟩ := unitEscape_append (by omega) (by omega) hrest
      exact ⟨Char.toNat_inj.mp (by omega), hxy⟩

lemma stringChar_cons (c : Char) : ∃ a cs, stringChar c = a :: cs ∧ a ≠ '"' := by
  cases spelled c with
  | plain h hq _ => exact ⟨c, [], h, hq⟩
  | short e _ h => exact ⟨'\\', [e], h, by decide⟩
  | unit _ h => exact ⟨'\\', _, h, by decide⟩
  | pair _ h => exact ⟨'\\', _, h, by decide⟩

lemma spelling_append (cs ds : List Char) {x y : List Char}
    (h : cs.flatMap stringChar ++ '"' :: x = ds.flatMap stringChar ++ '"' :: y) :
    cs = ds ∧ x = y := by
  induction cs generalizing ds with
  | nil =>
    cases ds with
    | nil => simpa using h
    | cons d ds =>
      obtain ⟨a, rest, he, ha⟩ := stringChar_cons d
      simp only [List.flatMap_nil, List.nil_append, List.flatMap_cons, he, List.cons_append,
        List.cons.injEq] at h
      exact absurd h.1.symm ha
  | cons c cs ih =>
    cases ds with
    | nil =>
      obtain ⟨a, rest, he, ha⟩ := stringChar_cons c
      simp only [List.flatMap_nil, List.nil_append, List.flatMap_cons, he, List.cons_append,
        List.cons.injEq] at h
      exact absurd h.1 ha
    | cons d ds =>
      simp only [List.flatMap_cons, List.append_assoc] at h
      obtain ⟨rfl, ht⟩ := stringChar_append h
      obtain ⟨rfl, hxy⟩ := ih ds ht
      exact ⟨rfl, hxy⟩

theorem writeString_append {s t : String} {x y : List Char}
    (h : writeString s ++ x = writeString t ++ y) : s = t ∧ x = y := by
  simp only [writeString, List.cons_append, List.append_assoc, List.cons.injEq, true_and,
    List.nil_append] at h
  obtain ⟨hl, hxy⟩ := spelling_append s.toList t.toList h
  exact ⟨String.toList_injective hl, hxy⟩

mutual
/-- No number with a fraction occurs in a value. -/
def Value.isWhole : Value → Bool
  | .real _ => false
  | .array items => allWhole items
  | .object members => membersWhole members
  | _ => true
def allWhole : List Value → Bool
  | [] => true
  | v :: rest => v.isWhole && allWhole rest
def membersWhole : List (String × Value) → Bool
  | [] => true
  | (_, v) :: rest => v.isWhole && membersWhole rest
end

def Value.kind : Value → Nat
  | .null => 0
  | .bool true => 1
  | .bool false => 2
  | .int _ => 3
  | .real _ => 4
  | .string _ => 5
  | .array _ => 6
  | .object _ => 7

/-- The kind of the value whose text begins with a character. -/
def kindOf (c : Char) : Nat :=
  if c == 'n' then 0 else if c == 't' then 1 else if c == 'f' then 2 else if c == '"' then 5
  else if c == '[' then 6 else if c == '\x7b' then 7 else 3

lemma kindOf_numeral {c : Char} (h : Number.isNumeral c) : kindOf c = 3 := by
  have hne (d : Char) (hd : Number.isNumeral d = false) : (c == d) = false := by
    simp only [beq_eq_false_iff_ne]
    rintro rfl
    simp [h] at hd
  simp [kindOf, hne 'n' (by decide), hne 't' (by decide), hne 'f' (by decide), hne '"' (by decide),
    hne '[' (by decide), hne '\x7b' (by decide)]

/-- A text begins with a character that tells the kind of the value. -/
lemma compact_cons {v : Value} (h : v.isWhole) :
    ∃ c cs, v.compact = c :: cs ∧ kindOf c = v.kind ∧ c ≠ ',' ∧ c ≠ ']' ∧ c ≠ '\x7d' := by
  cases v with
  | null => exact ⟨'n', _, rfl, by decide, by decide, by decide, by decide⟩
  | bool b => cases b <;> exact ⟨_, _, rfl, by decide, by decide, by decide, by decide⟩
  | int n =>
    obtain ⟨c, cs, he⟩ := List.exists_cons_of_ne_nil (Number.text_ne_nil n)
    have hc : Number.isNumeral c := Number.isNumeral_of_mem_text (n := n) (by simp [he])
    have hne (d : Char) (hd : Number.isNumeral d = false) : c ≠ d := by
      rintro rfl
      simp [hc] at hd
    exact ⟨c, cs, he, kindOf_numeral hc, hne _ (by decide), hne _ (by decide), hne _ (by decide)⟩
  | real x => simp [Value.isWhole] at h
  | string s => exact ⟨'"', _, rfl, rfl, by decide, by decide, by decide⟩
  | array items => exact ⟨'[', _, rfl, rfl, by decide, by decide, by decide⟩
  | object members => exact ⟨'\x7b', _, rfl, rfl, by decide, by decide, by decide⟩

/-- A value is followed by nothing or by punctuation. -/
def Stops (r : List Char) : Prop := ∀ c rest, r = c :: rest → Number.isNumeral c = false

lemma stops_nil : Stops [] := by
  intro c rest h
  cases h

lemma stops_cons {c : Char} {rest : List Char} (h : Number.isNumeral c = false) :
    Stops (c :: rest) := by
  intro c' rest' h'
  cases h'
  exact h

lemma takeWhile_numeral {ds r : List Char} (hd : ∀ c ∈ ds, Number.isNumeral c) (hr : Stops r) :
    (ds ++ r).takeWhile Number.isNumeral = ds := by
  induction ds with
  | nil =>
    cases r with
    | nil => rfl
    | cons c rest => simp [hr c rest rfl]
  | cons d ds ih => simp [hd d (by simp), ih fun c hc => hd c (by simp [hc])]

lemma text_append {m n : Int} {r r' : List Char} (hr : Stops r) (hr' : Stops r')
    (h : (Number.text m).toList ++ r = (Number.text n).toList ++ r') : m = n ∧ r = r' := by
  have hall (n : Int) : ∀ c ∈ (Number.text n).toList, Number.isNumeral c :=
    fun _ hc => Number.isNumeral_of_mem_text hc
  have hm := takeWhile_numeral (hall m) hr
  have hn := takeWhile_numeral (hall n) hr'
  have he : (Number.text m).toList = (Number.text n).toList := by rw [← hm, h, hn]
  rw [he] at h
  exact ⟨Number.text_injective (String.toList_injective he), List.append_cancel_left h⟩

lemma stops_items (rest : List Value) (r : List Char) :
    Stops (compactItems false rest ++ ']' :: r) := by
  cases rest with
  | nil => exact stops_cons (by decide)
  | cons v rest => exact stops_cons (by decide)

lemma stops_members (rest : List (String × Value)) (r : List Char) :
    Stops (compactMembers false rest ++ '\x7d' :: r) := by
  cases rest with
  | nil => exact stops_cons (by decide)
  | cons m rest => exact stops_cons (by decide)

lemma items_nil_ne {first : Bool} {v : Value} {vs : List Value} {r r' : List Char}
    (hv : v.isWhole) :
    ']' :: r ≠ compactItems first (v :: vs) ++ r' := by
  obtain ⟨c, cs, he, -, hcomma, hclose, -⟩ := compact_cons hv
  cases first <;> simp [compactItems, he, hclose.symm]

lemma members_nil_ne {first : Bool} {m : String × Value} {ms : List (String × Value)}
    {r r' : List Char} : '\x7d' :: r ≠ compactMembers first (m :: ms) ++ r' := by
  cases first <;> simp [compactMembers, writeString]

mutual
/-- The text of a value is a prefix code as soon as punctuation follows. -/
theorem compact_append (v w : Value) (hv : v.isWhole) (hw : w.isWhole) (r r' : List Char)
    (hr : Stops r) (hr' : Stops r') (h : v.compact ++ r = w.compact ++ r') : v = w ∧ r = r' := by
  have hkind : v.kind = w.kind := by
    obtain ⟨c, cs, hc, hkc, -⟩ := compact_cons hv
    obtain ⟨d, ds, hd, hkd, -⟩ := compact_cons hw
    rw [hc, hd, List.cons_append, List.cons_append, List.cons.injEq] at h
    rw [← hkc, ← hkd, h.1]
  match v, w, hkind with
  | .null, .null, _ => exact ⟨rfl, List.append_cancel_left h⟩
  | .bool true, .bool true, _ => exact ⟨rfl, List.append_cancel_left h⟩
  | .bool false, .bool false, _ => exact ⟨rfl, List.append_cancel_left h⟩
  | .int m, .int n, _ =>
    obtain ⟨rfl, hrr⟩ := text_append hr hr' h
    exact ⟨rfl, hrr⟩
  | .string s, .string t, _ =>
    obtain ⟨rfl, hrr⟩ := writeString_append h
    exact ⟨rfl, hrr⟩
  | .array vs, .array ws, _ =>
    simp only [Value.compact, List.cons_append, List.append_assoc, List.cons.injEq, true_and,
      List.nil_append] at h
    obtain ⟨rfl, hrr⟩ := compactItems_append true vs ws (by simpa [Value.isWhole] using hv)
      (by simpa [Value.isWhole] using hw) r r' h
    exact ⟨rfl, hrr⟩
  | .object ms, .object ns, _ =>
    simp only [Value.compact, List.cons_append, List.append_assoc, List.cons.injEq, true_and,
      List.nil_append] at h
    obtain ⟨rfl, hrr⟩ := compactMembers_append true ms ns (by simpa [Value.isWhole] using hv)
      (by simpa [Value.isWhole] using hw) r r' h
    exact ⟨rfl, hrr⟩

theorem compactItems_append (first : Bool) (vs ws : List Value) (hv : allWhole vs)
    (hw : allWhole ws) (r r' : List Char)
    (h : compactItems first vs ++ ']' :: r = compactItems first ws ++ ']' :: r') :
    vs = ws ∧ r = r' := by
  match vs, ws with
  | [], [] => exact ⟨rfl, by simpa [compactItems] using h⟩
  | [], w :: ws => exact absurd h (items_nil_ne (by simp_all [allWhole]))
  | v :: vs, [] => exact absurd h.symm (items_nil_ne (by simp_all [allWhole]))
  | v :: vs, w :: ws =>
    simp only [allWhole, Bool.and_eq_true] at hv hw
    simp only [compactItems, List.append_assoc, List.append_cancel_left_eq] at h
    obtain ⟨rfl, ht⟩ := compact_append v w hv.1 hw.1 _ _ (stops_items _ _) (stops_items _ _) h
    obtain ⟨rfl, hrr⟩ := compactItems_append false vs ws hv.2 hw.2 r r' ht
    exact ⟨rfl, hrr⟩

theorem compactMembers_append (first : Bool) (ms ns : List (String × Value)) (hm : membersWhole ms)
    (hn : membersWhole ns) (r r' : List Char)
    (h : compactMembers first ms ++ '\x7d' :: r = compactMembers first ns ++ '\x7d' :: r') :
    ms = ns ∧ r = r' := by
  match ms, ns with
  | [], [] => exact ⟨rfl, by simpa [compactMembers] using h⟩
  | [], n :: ns => exact absurd h members_nil_ne
  | m :: ms, [] => exact absurd h.symm members_nil_ne
  | (name, v) :: ms, (name', w) :: ns =>
    simp only [membersWhole, Bool.and_eq_true] at hm hn
    simp only [compactMembers, List.append_assoc, List.append_cancel_left_eq, List.cons_append] at h
    obtain ⟨rfl, ht⟩ := writeString_append h
    obtain ⟨rfl, hu⟩ := compact_append v w hm.1 hn.1 _ _ (stops_members _ _) (stops_members _ _)
      (List.cons.inj ht).2
    obtain ⟨rfl, hrr⟩ := compactMembers_append false ms ns hm.2 hn.2 r r' hu
    exact ⟨rfl, hrr⟩
end

/-- A value without fractions is known from its text on one line. -/
theorem line_injective {v w : Value} (hv : v.isWhole) (hw : w.isWhole) (h : v.line = w.line) :
    v = w :=
  (compact_append v w hv hw [] [] stops_nil stops_nil
    (congrArg (· ++ []) (String.ofList_injective h))).1

end SchemaLoom.Json
