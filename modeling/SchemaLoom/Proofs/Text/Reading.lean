import Mathlib.Tactic.Lemma
import SchemaLoom.Text.Line
import SchemaLoom.Text.Utf8

/-! Reading what was written: the octets of a text are read as this text, and lines that end with
line feeds stay as they are. -/
namespace SchemaLoom.Text

/-- The first octet of two, three or four says how many follow, and bounds the second. -/
lemma utf8Lead_two {b : Nat} (h : 0xc2 ≤ b) (h' : b ≤ 0xdf) :
    utf8Lead b = some (1, 0x80, 0xbf, b - 0xc0) := by
  simp [utf8Lead, h, h']

lemma utf8Lead_three {b : Nat} (h : 0xe0 ≤ b) (h' : b ≤ 0xef) : utf8Lead b =
    some (2, if b = 0xe0 then 0xa0 else 0x80, if b = 0xed then 0x9f else 0xbf, b - 0xe0) := by
  unfold utf8Lead
  grind

lemma utf8Lead_four {b : Nat} (h : 0xf0 ≤ b) (h' : b ≤ 0xf4) : utf8Lead b =
    some (3, if b = 0xf0 then 0x90 else 0x80, if b = 0xf4 then 0x8f else 0xbf, b - 0xf0) := by
  unfold utf8Lead
  grind

section
variable {position start lead seen low high bits b : Nat} {rest : List UInt8}

/-- The last octet of a character. -/
lemma utf8Decode_last (hb : b < 256) (hlow : low ≤ b) (hhigh : b ≤ high) :
    utf8Decode position (some (start, lead, 1, seen, low, high, bits)) (UInt8.ofNat b :: rest) =
      (Char.ofNat (bits * 64 + (b - 0x80)) :: ·) <$> utf8Decode (position + 1) none rest := by
  simp [utf8Decode, Nat.mod_eq_of_lt hb, hlow, hhigh]

lemma utf8Decode_next {owed : Nat} (hb : b < 256) (hlow : low ≤ b) (hhigh : b ≤ high) :
    utf8Decode position (some (start, lead, owed + 2, seen, low, high, bits))
    (UInt8.ofNat b :: rest) =
      utf8Decode (position + 1)
        (some (start, lead, owed + 1, seen + 1, 0x80, 0xbf, bits * 64 + (b - 0x80))) rest := by
  simp [utf8Decode, Nat.mod_eq_of_lt hb, hlow, hhigh]

lemma utf8Decode_lead {owed : Nat} (hb : b < 256) (hlarge : 0x80 ≤ b)
    (hlead : utf8Lead b = some (owed, low, high, bits)) :
    utf8Decode position none (UInt8.ofNat b :: rest) =
      utf8Decode (position + 1) (some (position, b, owed, 1, low, high, bits)) rest := by
  simp [utf8Decode, Nat.mod_eq_of_lt hb, Nat.not_lt.mpr hlarge, hlead]

end

/-- A character is read back, and reading goes on behind it. -/
theorem utf8Decode_char (c : Char) (position : Nat) (rest : List UInt8) :
    ∃ next, utf8Decode position none (String.utf8EncodeChar c ++ rest) =
      (c :: ·) <$> utf8Decode next none rest := by
  have hc : Char.ofNat c.val.toNat = c := Char.ofNat_toNat c
  have hvalid : c.val.toNat < 0xd800 ∨ 0xdfff < c.val.toNat ∧ c.val.toNat < 0x110000 := c.valid
  simp only [String.utf8EncodeChar]
  generalize c.val.toNat = n at hc hvalid
  by_cases h1 : n ≤ 127
  · refine ⟨position + 1, ?_⟩
    rw [if_pos h1, List.singleton_append, utf8Decode]
    simp [Nat.mod_eq_of_lt (show n < 256 by omega), show n < 0x80 by omega, hc]
  by_cases h2 : n ≤ 2047
  · refine ⟨position + 2, ?_⟩
    rw [if_neg h1, if_pos h2, List.cons_append, List.cons_append, List.nil_append,
      utf8Decode_lead (by omega) (by omega) (utf8Lead_two (by omega) (by omega)),
      utf8Decode_last (by omega) (by omega) (by omega)]
    rw [show (n / 64 % 32 + 192 - 0xc0) * 64 + (n % 64 + 128 - 0x80) = n by omega, hc]
  by_cases h3 : n ≤ 65535
  · refine ⟨position + 3, ?_⟩
    rw [if_neg h1, if_neg h2, if_pos h3, List.cons_append, List.cons_append, List.cons_append,
      List.nil_append, utf8Decode_lead (by omega) (by omega) (utf8Lead_three (by omega) (by omega)),
      utf8Decode_next (by omega) (by split <;> omega) (by split <;> omega),
      utf8Decode_last (by omega) (by omega) (by omega)]
    rw [show ((n / 4096 % 16 + 224 - 0xe0) * 64 + (n / 64 % 64 + 128 - 0x80)) * 64 +
      (n % 64 + 128 - 0x80) = n by omega, hc]
  · refine ⟨position + 4, ?_⟩
    rw [if_neg h1, if_neg h2, if_neg h3, List.cons_append, List.cons_append, List.cons_append,
      List.cons_append, List.nil_append,
      utf8Decode_lead (by omega) (by omega) (utf8Lead_four (by omega) (by omega)),
      utf8Decode_next (by omega) (by split <;> omega) (by split <;> omega),
      utf8Decode_next (by omega) (by omega) (by omega),
      utf8Decode_last (by omega) (by omega) (by omega)]
    rw [show (((n / 262144 % 8 + 240 - 0xf0) * 64 + (n / 4096 % 64 + 128 - 0x80)) * 64 +
      (n / 64 % 64 + 128 - 0x80)) * 64 + (n % 64 + 128 - 0x80) = n by omega, hc]

theorem utf8Decode_text (cs : List Char) (position : Nat) :
    utf8Decode position none (cs.flatMap String.utf8EncodeChar) = .ok cs := by
  induction cs generalizing position with
  | nil => rfl
  | cons c cs ih =>
    obtain ⟨next, hnext⟩ := utf8Decode_char c position (cs.flatMap String.utf8EncodeChar)
    rw [List.flatMap_cons, hnext, ih]
    rfl

lemma toList_byteArray (octets : ByteArray) : octets.toList = octets.data.toList := by
  have h (i : Nat) (front : List UInt8) :
      ByteArray.toList.loop octets i front = front.reverse ++ octets.data.toList.drop i := by
    fun_induction ByteArray.toList.loop octets i front with
    | case1 i front hi ih =>
      have hget : octets.get! i = octets.data.toList.get ⟨i, hi⟩ := getElem!_pos octets.data i hi
      rw [ih, List.drop_eq_getElem_cons hi, List.reverse_cons, hget]
      simp
    | case2 i front hi =>
      rw [List.drop_eq_nil_of_le (Nat.not_lt.mp hi), List.append_nil]
  exact (h 0 []).trans (by simp)

lemma toList_toUTF8 (text : String) :
    text.toUTF8.toList = text.toList.flatMap String.utf8EncodeChar := by
  rw [toList_byteArray, ← List.toList_data_toByteArray (l := text.toList.flatMap _)]
  exact congrArg (fun octets : ByteArray => octets.data.toList) (String.utf8Encode_toList).symm

/-- A text is read back from its octets. -/
theorem ofUtf8_toUTF8 (text : String) : ofUtf8 text.toUTF8.toList = .ok text.toList := by
  rw [toList_toUTF8]
  exact utf8Decode_text text.toList 0

theorem plainLines_eq_self {cs : List Char} (h : '\r' ∉ cs) : plainLines cs = cs := by
  induction cs with
  | nil => rfl
  | cons c cs ih =>
    rw [List.mem_cons, not_or] at h
    obtain ⟨hc, hcs⟩ := h
    rw [plainLines, ih hcs]
    · rintro _ rfl
      exact absurd rfl hc
    · rintro rfl
      exact absurd rfl hc

end SchemaLoom.Text
