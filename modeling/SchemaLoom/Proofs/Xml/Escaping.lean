import SchemaLoom.Proofs.Xml.Legal
import SchemaLoom.Xml.Piece
import SchemaLoom.Xml.Writer

/-! Names and attribute values as they are written in a tag are read back as they were. -/
namespace SchemaLoom.Xml

/-! ## What is taken up to a mark -/

section
variable {p : Char → Bool} {front rest : List Char}

lemma takeWhile_front (hfront : ∀ c ∈ front, p c = true) (hrest : ∀ c ∈ rest.head?, p c = false) :
    (front ++ rest).takeWhile p = front := by
  rw [List.takeWhile_append_of_pos hfront]
  cases rest with
  | nil => exact List.append_nil front
  | cons c rest => rw [List.takeWhile_cons_of_neg (by simp [hrest c rfl]), List.append_nil]

lemma dropWhile_front (hfront : ∀ c ∈ front, p c = true) (hrest : ∀ c ∈ rest.head?, p c = false) :
    (front ++ rest).dropWhile p = rest := by
  rw [List.dropWhile_append_of_pos hfront]
  cases rest with
  | nil => rfl
  | cons c rest => exact List.dropWhile_cons_of_neg (by simp [hrest c rfl])

end

/-! ## Names -/

/-- Characters of names, the colon among them. -/
def isWordChar (c : Char) : Bool := isNameChar c || c == ':'

/-- A character of a kind is none of the marks, if none of these is of the kind. -/
lemma not_mem_of_all {p : Char → Bool} {marks : List Char}
    (hmarks : (marks.all fun d => !p d) = true) {c : Char} (h : p c = true) : c ∉ marks := by
  intro hmem
  have hmark := List.all_eq_true.mp hmarks c hmem
  rw [h] at hmark
  cases hmark

/-- A name as it is written, in two parts or in one. -/
def isWord : List Char → Bool
  | [] => false
  | c :: rest => isNameStart c && rest.all isWordChar

lemma ne_of_isNameStart {c d : Char} (hc : isNameStart c = true) (hd : isNameStart d = false) :
    c ≠ d := by
  rintro rfl
  rw [hc] at hd
  cases hd

lemma isSpace_of_isNameStart {c : Char} (hc : isNameStart c = true) : isSpace c = false := by
  simp [isSpace, ne_of_isNameStart hc (show isNameStart ' ' = false by decide),
    ne_of_isNameStart hc (show isNameStart '\t' = false by decide),
    ne_of_isNameStart hc (show isNameStart '\n' = false by decide),
    ne_of_isNameStart hc (show isNameStart '\r' = false by decide)]

/-- A name is read up to the first character that cannot stand in one. -/
lemma name_append {word rest : List Char} {d : Char} (hword : isWord word = true)
    (hd : isWordChar d = false) :
    name? (word ++ d :: rest) = some (word, d :: rest) := by
  cases word with
  | nil => cases hword
  | cons c more =>
    obtain ⟨hc, hmore⟩ := Bool.and_eq_true_iff.mp hword
    have hall : ∀ e ∈ more, isWordChar e = true := List.all_eq_true.mp hmore
    have hstop : ∀ e ∈ (d :: rest).head?, isWordChar e = false := by simpa using hd
    change (if (isNameStart c || c == ':') = true then
      some (c :: (more ++ d :: rest).takeWhile isWordChar,
      (more ++ d :: rest).dropWhile isWordChar) else none) = _
    rw [hc, Bool.true_or, if_pos rfl, takeWhile_front hall hstop, dropWhile_front hall hstop]

/-! ## Attribute values -/

/-- Characters that do not stand in a value as they are. -/
def escapedChars : List Char := ['&', '<', '>', '"', '\t', '\n', '\r']

lemma attributeChar_of_not_mem {c : Char} (h : c ∉ escapedChars) : attributeChar c = [c] := by
  simp only [escapedChars, List.mem_cons, List.not_mem_nil, or_false, not_or] at h
  simp [attributeChar, h]

/-- What a character of a value is read as. -/
def attributePart : Char → TextPart
  | '&' => .given "amp" '&'
  | '<' => .given "lt" '<'
  | '>' => .given "gt" '>'
  | '"' => .given "quot" '"'
  | '\t' => .numbered '\t'
  | '\n' => .numbered '\n'
  | '\r' => .numbered '\r'
  | c => .plain c

lemma attributePart_of_not_mem {c : Char} (h : c ∉ escapedChars) : attributePart c = .plain c := by
  simp only [escapedChars, List.mem_cons, List.not_mem_nil, or_false, not_or] at h
  obtain ⟨h1, h2, h3, h4, h5, h6, h7⟩ := h
  unfold attributePart
  split <;> first | rfl | contradiction

/-- A reference stands for each of the characters that are not written as they are. -/
lemma exists_reference {c : Char} (h : c ∈ escapedChars) :
    ∃ name, attributeChar c = '&' :: name ++ [';'] ∧
    ';' ∉ name ∧ reference? name = some (attributePart c) := by
  simp only [escapedChars, List.mem_cons, List.not_mem_nil, or_false] at h
  obtain rfl | rfl | rfl | rfl | rfl | rfl | rfl := h
  · exact ⟨"amp".toList, by decide, by decide, by decide⟩
  · exact ⟨"lt".toList, by decide, by decide, by decide⟩
  · exact ⟨"gt".toList, by decide, by decide, by decide⟩
  · exact ⟨"quot".toList, by decide, by decide, by decide⟩
  · exact ⟨"#9".toList, by decide, by decide, by decide⟩
  · exact ⟨"#10".toList, by decide, by decide, by decide⟩
  · exact ⟨"#13".toList, by decide, by decide, by decide⟩

lemma partsFrom_pending {name : List Char} (hname : ';' ∉ name) (seen rest : List Char) :
    partsFrom? (some seen) (name ++ ';' :: rest) =
    partsFrom? (some (name.reverse ++ seen)) (';' :: rest) := by
  induction name generalizing seen with
  | nil => rfl
  | cons c name ih =>
    rw [List.mem_cons, not_or] at hname
    have hc : (c == ';') = false := by simpa using Ne.symm hname.1
    rw [List.cons_append, partsFrom?]
    simp only [hc, Bool.false_eq_true, if_false]
    rw [ih hname.2, List.reverse_cons, List.append_assoc, List.singleton_append]

lemma partsFrom_reference {name : List Char} {part : TextPart} (hname : ';' ∉ name)
    (href : reference? name = some part) (rest : List Char) :
    partsFrom? none ('&' :: name ++ ';' :: rest) = (part :: ·) <$> partsFrom? none rest := by
  have hopen : partsFrom? none ('&' :: name ++ ';' :: rest) =
      partsFrom? (some []) (name ++ ';' :: rest) := rfl
  rw [hopen, partsFrom_pending hname, List.append_nil, partsFrom?]
  simp only [beq_self_eq_true, if_true, List.reverse_reverse, href]
  cases partsFrom? none rest <;> rfl

lemma partsFrom_attributeChar (c : Char) (rest : List Char) :
    partsFrom? none (attributeChar c ++ rest) =
    (attributePart c :: ·) <$> partsFrom? none rest := by
  by_cases h : c ∈ escapedChars
  · obtain ⟨name, hc, hname, href⟩ := exists_reference h
    rw [hc, List.append_assoc]
    exact partsFrom_reference hname href rest
  · have hand : (c == '&') = false := by
      simp only [escapedChars, List.mem_cons, not_or] at h
      simpa using h.1
    rw [attributeChar_of_not_mem h, attributePart_of_not_mem h, List.singleton_append, partsFrom?]
    simp [hand]

/-- A value is split at its references into its characters. -/
theorem parts_attributeChars (cs : List Char) :
    parts? (cs.flatMap attributeChar) = some (cs.map attributePart) := by
  unfold parts?
  induction cs with
  | nil => rfl
  | cons c cs ih =>
    rw [List.flatMap_cons, partsFrom_attributeChar, ih]
    rfl

lemma flatten_mapM_cons {α β : Type} {f : α → Option (List β)} {a : α} {b : β} (h : f a = some [b])
    (as : List α) : (do let bs ← (a :: as).mapM f; return bs.flatten) =
      (b :: ·) <$> (do let bs ← as.mapM f; return bs.flatten) := by
  rw [List.mapM_cons, h]
  cases as.mapM f <;> rfl

lemma valueOf_attributePart (es : Entities) (depth : Nat) (c : Char) (parts : List TextPart) :
    valueOf? es depth (attributePart c :: parts) = (c :: ·) <$> valueOf? es depth parts := by
  unfold valueOf?
  refine flatten_mapM_cons ?_ parts
  by_cases h : c ∈ escapedChars
  · simp only [escapedChars, List.mem_cons, List.not_mem_nil, or_false] at h
    obtain rfl | rfl | rfl | rfl | rfl | rfl | rfl := h <;> rfl
  · rw [attributePart_of_not_mem h]
    simp only [escapedChars, List.mem_cons, List.not_mem_nil, or_false, not_or] at h
    by_cases hc : c = ' '
    · simp [hc]
    · simp [isSpace, hc, h]

/-- The characters of a value mean themselves, whatever a document declares. -/
theorem valueOf_attributeParts (es : Entities) (depth : Nat) (cs : List Char) :
    valueOf? es depth (cs.map attributePart) = some cs := by
  induction cs with
  | nil =>
    unfold valueOf?
    rfl
  | cons c cs ih =>
    rw [List.map_cons, valueOf_attributePart, ih]
    rfl

/-- Quotes, opening marks of tags and carriage returns are never written as they are. -/
lemma not_mem_attributeChars (cs : List Char) : '"' ∉ cs.flatMap attributeChar ∧
    '<' ∉ cs.flatMap attributeChar ∧ '\r' ∉ cs.flatMap attributeChar := by
  have hescaped : (escapedChars.all fun c => ['"', '<', '\r'].all
      fun d => !(attributeChar c).contains d) = true := by
    decide
  simp only [List.all_eq_true, Bool.not_eq_true', List.contains_eq_mem,
    decide_eq_false_iff_not] at hescaped
  have hmarks : ∀ d ∈ ['"', '<', '\r'], d ∈ escapedChars := by simp [escapedChars]
  have hall : ∀ d ∈ ['"', '<', '\r'], d ∉ cs.flatMap attributeChar := by
    intro d hd hmem
    obtain ⟨c, -, hc⟩ := List.mem_flatMap.mp hmem
    by_cases h : c ∈ escapedChars
    · exact hescaped c h d hd hc
    · rw [attributeChar_of_not_mem h, List.mem_singleton] at hc
      exact h (hc ▸ hmarks d hd)
  exact ⟨hall _ (by decide), hall _ (by decide), hall _ (by decide)⟩

lemma fit_attributeChars {cs : List Char} (h : Fit cs) : Fit (cs.flatMap attributeChar) := by
  have hescaped : (escapedChars.all fun c => (attributeChar c).all isXmlChar) = true := by decide
  simp only [List.all_eq_true] at hescaped
  intro d hd
  obtain ⟨c, hc, hd⟩ := List.mem_flatMap.mp hd
  by_cases hesc : c ∈ escapedChars
  · exact hescaped c hesc d hd
  · rw [attributeChar_of_not_mem hesc, List.mem_singleton] at hd
    exact hd ▸ h c hc

/-- What stands between quotes is read up to the second quote. -/
lemma quotedText_append {cs rest : List Char} (h : '"' ∉ cs) :
    quotedText? ('"' :: (cs ++ '"' :: rest)) = some (cs, rest) := by
  have hall : ∀ c ∈ cs, (c != '"') = true := fun c hc => by
    rw [bne_iff_ne]
    rintro rfl
    exact h hc
  rw [quotedText?, if_pos (by decide), dropWhile_front hall (by simp),
    takeWhile_front hall (by simp)]

end SchemaLoom.Xml
