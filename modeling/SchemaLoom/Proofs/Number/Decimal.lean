import Mathlib.Tactic.Lemma
import SchemaLoom.Number.Integer

/-! Numbers are told apart by their decimal text, which holds digits only behind its sign. -/
namespace SchemaLoom.Number

theorem natText_injective : Function.Injective natText := by
  intro m n h
  have hd : Nat.toDigits 10 m = Nat.toDigits 10 n := String.ofList_injective h
  rw [← Nat.ofDigitChars_ten_toDigits (n := m), hd, Nat.ofDigitChars_ten_toDigits]

lemma toList_natText (n : Nat) : (natText n).toList = Nat.toDigits 10 n := by simp [natText]

lemma isDigit_of_mem_natText {n : Nat} {c : Char} (h : c ∈ (natText n).toList) : c.isDigit := by
  rw [toList_natText] at h
  exact Nat.isDigit_of_mem_toDigits (by decide) (by decide) h

/-- The characters of a number: digits and a minus sign. -/
def isNumeral (c : Char) : Bool := c == '-' || c.isDigit

lemma isNumeral_of_mem_text {n : Int} {c : Char} (h : c ∈ (text n).toList) : isNumeral c := by
  cases n with
  | ofNat n =>
    have hd := isDigit_of_mem_natText h
    simp [isNumeral, hd]
  | negSucc n =>
    simp only [text, String.toList_ofList, List.mem_cons] at h
    obtain rfl | h := h
    · rfl
    · have hd : c.isDigit := Nat.isDigit_of_mem_toDigits (by decide) (by decide) h
      simp [isNumeral, hd]

lemma text_ne_nil (n : Int) : (text n).toList ≠ [] := by
  cases n with
  | ofNat n => simp [text, toList_natText, Nat.toDigits_ne_nil]
  | negSucc n => simp [text]

theorem text_injective : Function.Injective text := by
  intro m n h
  have hl := congrArg String.toList h
  have hs (k : Nat) (ds : List Char) : Nat.toDigits 10 k ≠ '-' :: ds := by
    intro hk
    have hm : '-' ∈ Nat.toDigits 10 k := by rw [hk]; exact List.mem_cons_self
    have hd := Nat.isDigit_of_mem_toDigits (by decide) (by decide) hm
    exact absurd hd (by decide)
  cases m with
  | ofNat m =>
    cases n with
    | ofNat n => rw [natText_injective h]
    | negSucc n => exact absurd hl (by simpa [text, toList_natText] using hs m _)
  | negSucc m =>
    cases n with
    | ofNat n => exact absurd hl.symm (by simpa [text, toList_natText] using hs n _)
    | negSucc n =>
      have hd : Nat.toDigits 10 (m + 1) = Nat.toDigits 10 (n + 1) := by simpa [text] using hl
      have he := congrArg (fun ds => Nat.ofDigitChars 10 ds 0) hd
      simp only [Nat.ofDigitChars_ten_toDigits] at he
      rw [Nat.succ.inj he]

end SchemaLoom.Number
