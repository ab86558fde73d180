import Mathlib.Tactic.Lemma
import Mathlib.Tactic.Ring
import SchemaLoom.Proofs.Number.Decimal
import SchemaLoom.Text.Case

/-! Numbers that are read are never too long to be written, and numbers that are not too long are
read back as they are written. -/
namespace SchemaLoom.Number

lemma isWritable_iff {n : Int} : IsWritable n ↔ n.natAbs < 10 ^ digitLimit :=
  Nat.length_toDigits_le_iff (by decide) (by decide)

/-! ## What is read can be written -/

lemma digitValue_lt {c : Char} {d : Nat} (h : Text.digitValue? c = some d) : d < 10 := by
  obtain ⟨start, hstart, rfl⟩ := Option.map_eq_some_iff.mp h
  have hrange := List.find?_some hstart
  simp only [Bool.and_eq_true, decide_eq_true_eq] at hrange
  omega

lemma lt_of_mem_digitsAfter {cs : List Char} {afterDigit : Bool} {ds : List Nat}
    (h : digitsAfter afterDigit cs = some ds) : ∀ d ∈ ds, d < 10 := by
  fun_induction digitsAfter afterDigit cs generalizing ds with
  | case1 => cases h; simp
  | case2 => cases h
  | case3 rest ih => exact ih h
  | case4 => cases h
  | case5 afterDigit c rest hc ih =>
    obtain ⟨d, hd, h⟩ := Option.bind_eq_some_iff.mp h
    obtain ⟨more, hmore, h⟩ := Option.bind_eq_some_iff.mp h
    cases h
    exact List.forall_mem_cons.mpr ⟨digitValue_lt hd, ih hmore⟩

lemma ofDigits_lt {ds : List Nat} (h : ∀ d ∈ ds, d < 10) : ofDigits ds < 10 ^ ds.length := by
  have hfrom (ds : List Nat) (h : ∀ d ∈ ds, d < 10) (n : Nat) :
      ds.foldl (fun n d => 10 * n + d) n < (n + 1) * 10 ^ ds.length := by
    induction ds generalizing n with
    | nil => simp
    | cons d ds ih =>
      have hd := h d (by simp)
      have hrest := ih (fun e he => h e (by simp [he])) (10 * n + d)
      calc ds.foldl (fun n d => 10 * n + d) (10 * n + d)
          < (10 * n + d + 1) * 10 ^ ds.length := hrest
        _ ≤ (10 * (n + 1)) * 10 ^ ds.length := Nat.mul_le_mul_right _ (by omega)
        _ = (n + 1) * 10 ^ (d :: ds).length := by rw [List.length_cons, pow_succ]; ring
  simpa [ofDigits] using hfrom ds h 0

lemma magnitude_lt {cs : List Char} {n : Nat} (h : magnitude? cs = some n) :
    n < 10 ^ digitLimit := by
  unfold magnitude? at h
  split at h
  · rename_i ds hds
    split at h
    · rename_i hlength
      cases h
      exact (ofDigits_lt (lt_of_mem_digitsAfter hds)).trans_le
        (Nat.pow_le_pow_right (by decide) hlength)
    · cases h
  · cases h

theorem isWritable_ofText {raw : String} {n : Int} (h : ofText? raw = some n) : IsWritable n := by
  rw [isWritable_iff]
  unfold ofText? signed? at h
  split at h
  all_goals
    obtain ⟨m, hm, rfl⟩ := Option.map_eq_some_iff.mp h
    obtain ⟨k, hk, hm⟩ := Option.bind_eq_some_iff.mp hm
    cases hm
    simpa using magnitude_lt hk

/-! ## What can be written is read back -/

lemma toNat_lt_of_isNumeral {c : Char} (h : isNumeral c = true) : c.toNat < 58 := by
  have hcases : c = '-' ∨ 48 ≤ c.toNat ∧ c.toNat ≤ 57 := by
    simpa [isNumeral, Char.isDigit, UInt32.le_iff_toNat_le] using h
  obtain rfl | hrange := hcases
  · decide
  · omega

/-- Nothing is stripped from the text of a number, and it has no capitals. -/
lemma numeral_plain {c : Char} (h : isNumeral c = true) :
    Text.isBlank c = false ∧ isPadding c = false ∧ c.toNat ≠ 0x3a3 ∧ Text.lowerOf c = [c] := by
  have hall : ∀ n < 58, isNumeral (Char.ofNat n) = true → Text.isBlank (Char.ofNat n) = false ∧
      isPadding (Char.ofNat n) = false ∧ (Char.ofNat n).toNat ≠ 0x3a3 ∧
      Text.lowerOf (Char.ofNat n) = [Char.ofNat n] := by
    decide +kernel
  have hc := hall c.toNat (toNat_lt_of_isNumeral h)
  rw [Char.ofNat_toNat] at hc
  exact hc h

lemma digitValue_of_isDigit {c : Char} (h : c.isDigit = true) :
    c ≠ '_' ∧ Text.digitValue? c = some (c.toNat - 48) := by
  have hall : ∀ n < 58, (Char.ofNat n).isDigit = true → Char.ofNat n ≠ '_' ∧
      Text.digitValue? (Char.ofNat n) = some ((Char.ofNat n).toNat - 48) := by
    decide +kernel
  have hnumeral : isNumeral c = true := by simp [isNumeral, h]
  have hc := hall c.toNat (toNat_lt_of_isNumeral hnumeral)
  rw [Char.ofNat_toNat] at hc
  exact hc h

lemma digitsAfter_digits {cs : List Char} (h : ∀ c ∈ cs, c.isDigit = true) (hne : cs ≠ []) :
    digitsAfter false cs = some (cs.map fun c => c.toNat - 48) := by
  have hafter (cs : List Char) (h : ∀ c ∈ cs, c.isDigit = true) (afterDigit : Bool)
      (hne : afterDigit = true ∨ cs ≠ []) :
      digitsAfter afterDigit cs = some (cs.map fun c => c.toNat - 48) := by
    induction cs generalizing afterDigit with
    | nil =>
      rw [hne.resolve_right (by simp)]
      rfl
    | cons c cs ih =>
      obtain ⟨hscore, hvalue⟩ := digitValue_of_isDigit (h c (by simp))
      rw [digitsAfter, hvalue, ih (fun d hd => h d (by simp [hd])) true (.inl rfl)]
      · rfl
      · simpa using hscore
  exact hafter cs h false (.inr hne)

lemma ofDigits_toDigits (n : Nat) :
    ofDigits ((Nat.toDigits 10 n).map fun c => c.toNat - 48) = n := by
  rw [ofDigits, List.foldl_map]
  exact Nat.ofDigitChars_ten_toDigits

lemma magnitude_toDigits {n : Nat} (h : (Nat.toDigits 10 n).length ≤ digitLimit) :
    magnitude? (Nat.toDigits 10 n) = some n := by
  have hdigits : ∀ c ∈ Nat.toDigits 10 n, c.isDigit = true := fun c hc =>
    Nat.isDigit_of_mem_toDigits (by decide) (by decide) hc
  rw [magnitude?, digitsAfter_digits hdigits Nat.toDigits_ne_nil]
  simp only [List.length_map, h, if_true, ofDigits_toDigits]

end SchemaLoom.Number

namespace SchemaLoom.Text

/-- Where no character of a class occurs, none is dropped. -/
lemma trimBy_eq_self {p : Char → Bool} {cs : List Char} (h : ∀ c ∈ cs, p c = false) :
    trimBy p cs = cs := by
  have hdrop (ds : List Char) (hds : ∀ c ∈ ds, p c = false) : ds.dropWhile p = ds := by
    cases ds with
    | nil => rfl
    | cons d ds => rw [List.dropWhile_cons_of_neg (by simp [hds d])]
  rw [trimBy, hdrop cs h, hdrop cs.reverse fun c hc => h c (List.mem_reverse.mp hc),
    List.reverse_reverse]

end SchemaLoom.Text

namespace SchemaLoom.Number

@[simp] lemma strip_text (n : Int) : Text.strip (text n) = text n := by
  rw [Text.strip, Text.trimBy_eq_self fun c hc => (numeral_plain (isNumeral_of_mem_text hc)).1,
    String.ofList_toList]

/-- Digits alone are read as the number that they stand for. -/
lemma signed_digits {cs : List Char} (hdigits : ∀ c ∈ cs, c.isDigit = true) {n : Nat}
    (h : magnitude? cs = some n) :
    signed? cs = some (n : Int) := by
  unfold signed?
  split
  · exact absurd (hdigits '-' (by simp)) (by decide)
  · exact absurd (hdigits '+' (by simp)) (by decide)
  · rw [h]
    rfl

/-- A number that is not too long is read back from its text. -/
theorem ofText_text {n : Int} (h : IsWritable n) : ofText? (text n) = some n := by
  rw [ofText?, Text.trimBy_eq_self fun c hc => (numeral_plain (isNumeral_of_mem_text hc)).2.1]
  cases n with
  | ofNat n =>
    have hlist : (text (.ofNat n)).toList = Nat.toDigits 10 n := toList_natText n
    have hdigits : ∀ c ∈ (text (.ofNat n)).toList, c.isDigit = true :=
      fun c hc => isDigit_of_mem_natText hc
    rw [hlist] at hdigits ⊢
    exact signed_digits hdigits (magnitude_toDigits h)
  | negSucc n =>
    have hmagnitude : magnitude? (Nat.toDigits 10 (n + 1)) = some (n + 1) := magnitude_toDigits h
    rw [text, String.toList_ofList, signed?, hmagnitude]
    rfl

/-- The text of a number begins with a digit or a sign, also in lower case. -/
lemma lower_text_ne (n : Int) : Text.lower (text n) ≠ "unbounded" := by
  intro h
  obtain ⟨c, rest, htext⟩ := List.exists_cons_of_ne_nil (text_ne_nil n)
  obtain ⟨-, -, hsigma, hlower⟩ :=
    numeral_plain (isNumeral_of_mem_text (n := n) (c := c) (by simp [htext]))
  have hlist := congrArg String.toList h
  rw [Text.lower, String.toList_ofList, htext, Text.lowerAfter] at hlist
  simp only [beq_iff_eq, hsigma, if_false, hlower, List.singleton_append] at hlist
  have hhead : c = 'u' := by simpa using congrArg List.head? hlist
  have hnumeral := isNumeral_of_mem_text (n := n) (c := c) (by simp [htext])
  rw [hhead] at hnumeral
  exact absurd hnumeral (by decide)

end SchemaLoom.Number
