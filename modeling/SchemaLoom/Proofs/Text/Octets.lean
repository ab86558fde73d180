import Mathlib.Algebra.Group.Nat.Defs
import SchemaLoom.Proofs.Text.Reading

/-! How many octets a text takes, and reading octets one piece after the other: what is read does
not depend on the position, and takes no more octets than there were. -/
namespace SchemaLoom.Text

/-- How many octets a text takes. -/
def octetCount (cs : List Char) : Nat := (cs.flatMap String.utf8EncodeChar).length

@[simp] lemma octetCount_nil : octetCount [] = 0 := rfl

@[simp] lemma octetCount_cons (c : Char) (cs : List Char) :
    octetCount (c :: cs) = c.utf8Size + octetCount cs := by simp [octetCount]

@[simp] lemma octetCount_append (cs ds : List Char) :
    octetCount (cs ++ ds) = octetCount cs + octetCount ds := by
  simp [octetCount]

/-! ## The position does not count -/

lemma toOption_map {ε α β : Type} (f : α → β) (m : Except ε α) :
    (f <$> m).toOption = m.toOption.map f := by
  cases m <;> rfl

lemma toOption_decode (octets : List UInt8) :
    ∀ position position' start start' lead owed seen low high bits,
    (utf8Decode position none octets).toOption = (utf8Decode position' none octets).toOption ∧
    (utf8Decode position (some (start, lead, owed, seen, low, high, bits)) octets).toOption =
      (utf8Decode position' (some (start', lead, owed, seen, low, high, bits))
      octets).toOption := by
  induction octets with
  | nil => exact fun _ _ _ _ _ _ _ _ _ _ => ⟨rfl, rfl⟩
  | cons octet octets ih =>
    intro position position' start start' lead owed seen low high bits
    have hnone := (ih (position + 1) (position' + 1) 0 0 0 0 0 0 0 0).1
    constructor
    · rw [utf8Decode, utf8Decode]
      split
      · rw [toOption_map, toOption_map, hnone]
      · cases utf8Lead octet.toNat with
        | none => rfl
        | some shape => exact (ih _ _ _ _ _ _ _ _ _ _).2
    · rw [utf8Decode, utf8Decode]
      split
      · split
        · rw [toOption_map, toOption_map, hnone]
        · exact (ih _ _ _ _ _ _ _ _ _ _).2
      · rfl

/-- Octets of a text in front of others are read as that text. -/
lemma ofUtf8_append (cs : List Char) (octets : List UInt8) :
    (ofUtf8 (cs.flatMap String.utf8EncodeChar ++ octets)).toOption =
    (ofUtf8 octets).toOption.map (cs ++ ·) := by
  have hfrom (position : Nat) :
      (utf8Decode position none (cs.flatMap String.utf8EncodeChar ++ octets)).toOption =
      (utf8Decode 0 none octets).toOption.map (cs ++ ·) := by
    induction cs generalizing position with
    | nil => simpa using (toOption_decode octets position 0 0 0 0 0 0 0 0 0).1
    | cons c cs ih =>
      obtain ⟨next, hnext⟩ :=
        utf8Decode_char c position (cs.flatMap String.utf8EncodeChar ++ octets)
      rw [List.flatMap_cons, List.append_assoc, hnext, toOption_map, ih next, Option.map_map]
      rfl
  exact hfrom 0

/-! ## No octet makes two -/

/-- The rest of a character that is begun: whatever its open bits are, it takes no more octets than
were seen and are owed. -/
structure Begun (owed seen high bits : Nat) : Prop where
  positive : 0 < owed
  high : high ≤ 0xbf
  size : ∀ n < (bits + 1) * 64 ^ owed, (Char.ofNat n).utf8Size ≤ seen + owed

lemma toNat_ofNat_le (n : Nat) : (Char.ofNat n).val.toNat ≤ n := by
  by_cases h : n.isValidChar
  · rw [Char.ofNat, dif_pos h]
    exact Nat.le_of_eq rfl
  · rw [Char.ofNat, dif_neg h]
    exact Nat.zero_le n

lemma utf8Size_ofNat_le {n size : Nat}
    (h : size = 1 ∧ n < 0x80 ∨ size = 2 ∧ n < 0x800 ∨ size = 3 ∧ n < 0x10000 ∨ size = 4) :
    (Char.ofNat n).utf8Size ≤ size := by
  have hle := toNat_ofNat_le n
  rw [← String.length_utf8EncodeChar]
  simp only [String.utf8EncodeChar]
  generalize (Char.ofNat n).val.toNat = value at hle
  split
  · simp only [List.length_cons, List.length_nil]
    omega
  · split
    · simp only [List.length_cons, List.length_nil]
      omega
    · split
      · simp only [List.length_cons, List.length_nil]
        omega
      · simp only [List.length_cons, List.length_nil]
        omega

lemma begun_of_lead {b owed low high bits : Nat} (h : utf8Lead b = some (owed, low, high, bits)) :
    Begun owed 1 high bits := by
  have hshape : (owed = 1 ∧ bits < 0x20 ∨ owed = 2 ∧ bits < 0x10 ∨ owed = 3) ∧ high ≤ 0xbf := by
    unfold utf8Lead at h
    grind
  obtain ⟨hbits, hhigh⟩ := hshape
  refine ⟨by omega, hhigh, fun n hn => utf8Size_ofNat_le ?_⟩
  obtain ⟨rfl, hbits⟩ | ⟨rfl, hbits⟩ | rfl := hbits
  · exact .inr (.inl ⟨rfl, by omega⟩)
  · exact .inr (.inr (.inl ⟨rfl, by omega⟩))
  · exact .inr (.inr (.inr rfl))

lemma Begun.next {owed seen high bits b : Nat} (h : Begun owed seen high bits) (howed : 1 < owed)
    (hhigh : b ≤ high) : Begun (owed - 1) (seen + 1) 0xbf (bits * 64 + (b - 0x80)) := by
  refine ⟨by omega, by decide, fun n hn => ?_⟩
  have hsize := h.size n (Nat.lt_of_lt_of_le hn ?_)
  · omega
  · have hpow : 64 ^ owed = 64 * 64 ^ (owed - 1) := by
      rw [← Nat.pow_succ', Nat.succ_eq_add_one, Nat.sub_add_cancel (by omega)]
    have hbits : bits * 64 + (b - 0x80) + 1 ≤ (bits + 1) * 64 := by
      have := h.high
      omega
    calc (bits * 64 + (b - 0x80) + 1) * 64 ^ (owed - 1) ≤ (bits + 1) * 64 * 64 ^ (owed - 1) :=
          Nat.mul_le_mul_right _ hbits
      _ = (bits + 1) * 64 ^ owed := by rw [hpow, Nat.mul_assoc]

lemma Begun.last {seen high bits b : Nat} (h : Begun 1 seen high bits) (hhigh : b ≤ high) :
    (Char.ofNat (bits * 64 + (b - 0x80))).utf8Size ≤ seen + 1 := by
  have := h.high
  exact h.size _ (by omega)

/-- What is read takes no more octets than there were. -/
lemma octetCount_decode (octets : List UInt8) : ∀ position cs,
    (utf8Decode position none octets = .ok cs → octetCount cs ≤ octets.length) ∧
    ∀ start lead owed seen low high bits, Begun owed seen high bits →
      utf8Decode position (some (start, lead, owed, seen, low, high, bits)) octets = .ok cs →
        octetCount cs ≤ octets.length + seen := by
  induction octets with
  | nil =>
    refine fun position cs => ⟨fun h => ?_, fun start lead owed seen low high bits _ h => ?_⟩
    · cases h
      simp
    · cases h
  | cons octet octets ih =>
    have hafter {position : Nat} {cs : List Char} {c : Char}
        (h : (c :: ·) <$> utf8Decode (position + 1) none octets = .ok cs) :
        octetCount cs ≤ octets.length + c.utf8Size := by
      cases hrest : utf8Decode (position + 1) none octets with
      | error fault =>
        rw [hrest] at h
        cases h
      | ok rest =>
        rw [hrest] at h
        cases h
        have hle := (ih (position + 1) rest).1 hrest
        rw [octetCount_cons]
        omega
    refine fun position cs => ⟨fun h => ?_, fun start lead owed seen low high bits hbegun h => ?_⟩
    · rw [utf8Decode] at h
      split at h
      · rename_i hsmall
        have hsize : (Char.ofNat octet.toNat).utf8Size ≤ 1 := utf8Size_ofNat_le (.inl ⟨rfl, hsmall⟩)
        have hle := hafter h
        rw [List.length_cons]
        omega
      · cases hlead : utf8Lead octet.toNat with
        | none =>
          rw [hlead] at h
          cases h
        | some shape =>
          rw [hlead] at h
          exact (ih (position + 1) cs).2 _ _ _ _ _ _ _ (begun_of_lead hlead) h
    · rw [utf8Decode] at h
      split at h
      · rename_i hrange
        obtain ⟨-, hhigh⟩ : low ≤ octet.toNat ∧ octet.toNat ≤ high := by simpa using hrange
        dsimp only at h
        split at h
        · rename_i howed
          obtain rfl : owed = 1 := Nat.le_antisymm howed hbegun.positive
          have hle := hafter h
          have hsize := hbegun.last hhigh
          rw [List.length_cons]
          omega
        · rename_i howed
          have hle :=
            (ih (position + 1) cs).2 _ _ _ _ _ _ _ (hbegun.next (Nat.not_le.mp howed) hhigh) h
          rw [List.length_cons]
          omega
      · cases h

theorem octetCount_ofUtf8 {octets : List UInt8} {cs : List Char} (h : ofUtf8 octets = .ok cs) :
    octetCount cs ≤ octets.length := (octetCount_decode octets 0 cs).1 h

end SchemaLoom.Text
