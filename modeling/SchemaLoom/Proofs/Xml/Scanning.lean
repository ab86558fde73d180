import SchemaLoom.Proofs.Xml.Escaping
import SchemaLoom.Proofs.Xml.Layout

/-! The text of a tree is scanned to its tags in their order, with the words of the elements that
hold no other ones, and with the blanks of the layout between the others. -/
namespace SchemaLoom.Xml

/-! ## Tags -/

/-- The attributes of a tag by their written names, bindings of qualifiers first. -/
def tagAttributes (bindings : List (String × String)) (attributes : List Attribute) :
    List (String × String) :=
  bindings.map (fun (qualifier, uri) =>
    (if qualifier == "" then "xmlns" else "xmlns:" ++ qualifier, uri)) ++
    attributes.map fun a => (a.name.written, a.value)

def writeAttributes (pairs : List (String × String)) : List Char :=
  pairs.flatMap fun a => writeAttribute a.1 a.2

/-- The attributes of a tag as they are read. -/
def readAttributes (pairs : List (String × String)) : List (List Char × List Char) :=
  pairs.map fun a => (a.1.toList, a.2.toList)

/-- The attributes of a tag as they are scanned, with their references in them. -/
def rawAttributes (pairs : List (String × String)) : List (List Char × List TextPart) :=
  pairs.map fun a => (a.1.toList, a.2.toList.map attributePart)

/-- All attributes of a tag have names. -/
def Named (pairs : List (String × String)) : Prop := ∀ a ∈ pairs, isWord a.1.toList = true

lemma write_attributes (bindings : List (String × String)) (attributes : List Attribute) :
    bindings.flatMap (fun (qualifier, uri) => writeBinding qualifier uri) ++
      attributes.flatMap (fun a => writeAttribute a.name.written a.value) =
      writeAttributes (tagAttributes bindings attributes) := by
  simp [writeAttributes, tagAttributes, List.flatMap_map, writeBinding]

section
variable {cs rest : List Char}

lemma exists_of_isWord (h : isWord cs = true) :
    ∃ c more, cs = c :: more ∧ isNameStart c = true := by
  cases cs with
  | nil => cases h
  | cons c more => exact ⟨c, more, rfl, (Bool.and_eq_true_iff.mp h).1⟩

lemma skipSpace_word (h : isWord cs = true) : skipSpace (cs ++ rest) = cs ++ rest := by
  obtain ⟨c, more, rfl, hc⟩ := exists_of_isWord h
  exact List.dropWhile_cons_of_neg (by simp [isSpace_of_isNameStart hc])

/-- One attribute is read, and reading goes on behind it. -/
lemma tagEnd_attribute {name value : String} (hname : isWord name.toList = true) (fuel : Nat) :
    tagEnd? (fuel + 1) (writeAttribute name value ++ rest) = (do
      let (others, empty, rest) ← tagEnd? fuel rest
      some ((name.toList, value.toList.map attributePart) :: others, empty, rest)) := by
  obtain ⟨hquote, hmark, -⟩ := not_mem_attributeChars value.toList
  have hparts := parts_attributeChars value.toList
  have htext : writeAttribute name value ++ rest =
      ' ' :: (name.toList ++
        '=' :: '"' :: (value.toList.flatMap attributeChar ++ '"' :: rest)) := by
    simp [writeAttribute]
  generalize value.toList.flatMap attributeChar = escaped at htext hquote hmark hparts
  have hskip (after : List Char) : skipSpace (' ' :: (name.toList ++ after)) =
      name.toList ++ after :=
    skipSpace_word hname
  have hskip1 (after : List Char) : skipSpace1? (' ' :: (name.toList ++ after)) =
      some (name.toList ++ after) :=
    congrArg some (skipSpace_word hname)
  have hequals : skipEquals? ('=' :: '"' :: (escaped ++ '"' :: rest)) =
      some ('"' :: (escaped ++ '"' :: rest)) := rfl
  have hcontains : ¬escaped.contains '<' = true := by simpa using hmark
  obtain ⟨c, more, hcs, hc⟩ := exists_of_isWord hname
  rw [htext, tagEnd?, hskip]
  split
  · rename_i heq
    rw [hcs] at heq
    exact absurd (List.cons.inj heq).1 (ne_of_isNameStart hc (by decide))
  · rename_i heq
    rw [hcs] at heq
    exact absurd (List.cons.inj heq).1 (ne_of_isNameStart hc (by decide))
  · simp only [hskip1, name_append hname (show isWordChar '=' = false by decide), hequals,
      quotedText_append hquote, hparts, if_neg hcontains, Option.bind_eq_bind, Option.bind_some]

/-- A tag is read to its end. -/
lemma tagEnd_attributes {pairs : List (String × String)} (hpairs : Named pairs)
    {mark : List Char} {empty : Bool}
    (hmark : ∀ fuel, tagEnd? (fuel + 1) (mark ++ rest) = some ([], empty, rest)) {fuel : Nat}
    (hfuel : pairs.length < fuel) :
    tagEnd? fuel (writeAttributes pairs ++ (mark ++ rest)) =
    some (rawAttributes pairs, empty, rest) := by
  obtain ⟨fuel, rfl⟩ := Nat.exists_eq_add_one_of_ne_zero (Nat.ne_of_gt (Nat.zero_lt_of_lt hfuel))
  induction pairs generalizing fuel with
  | nil => exact hmark fuel
  | cons a pairs ih =>
    obtain ⟨ha, hpairs⟩ := List.forall_mem_cons.mp hpairs
    rw [List.length_cons] at hfuel
    obtain ⟨fuel, rfl⟩ := Nat.exists_eq_add_one_of_ne_zero (show fuel ≠ 0 by omega)
    have hmore := ih hpairs fuel (by omega)
    rw [writeAttributes, List.flatMap_cons, List.append_assoc, tagEnd_attribute ha]
    rw [writeAttributes] at hmore
    rw [hmore]
    rfl

lemma length_le_writeAttributes (pairs : List (String × String)) :
    pairs.length ≤ (writeAttributes pairs).length := by
  induction pairs with
  | nil => exact Nat.le_refl 0
  | cons a pairs ih =>
    rw [writeAttributes, List.flatMap_cons, List.length_append, List.length_cons, ← writeAttributes]
    have hpos : 0 < (writeAttribute a.1 a.2).length := by simp [writeAttribute]
    omega

/-- What follows the name of a tag cannot stand in a name. -/
lemma exists_behind_name (pairs : List (String × String)) {d : Char} (hd : isWordChar d = false) :
    ∃ e more, writeAttributes pairs ++ d :: rest = e :: more ∧ isWordChar e = false := by
  cases pairs with
  | nil => exact ⟨d, rest, rfl, hd⟩
  | cons a pairs => exact ⟨' ', _, rfl, by decide⟩

/-! ## Pieces -/

lemma nextPiece_tag {word : List Char} (hword : isWord word = true) :
    nextPiece? ('<' :: (word ++ rest)) = (do
    let (name, rest) ← name? (word ++ rest)
    let (attributes, empty, rest) ← tagEnd? (rest.length + 1) rest
    let opening := RawPiece.opening name attributes
    some (if empty then [opening, .closing name] else [opening], rest)) := by
  obtain ⟨c, more, rfl, hc⟩ := exists_of_isWord hword
  have hne (d : Char) (hd : isNameStart d = false) : c ≠ d := ne_of_isNameStart hc hd
  unfold nextPiece?
  split
  · rename_i heq
    exact absurd (List.cons.inj (List.cons.inj heq).2).1 (hne _ (by decide))
  · rename_i heq
    exact absurd (List.cons.inj (List.cons.inj heq).2).1 (hne _ (by decide))
  · rename_i heq
    exact absurd (List.cons.inj (List.cons.inj heq).2).1 (hne _ (by decide))
  · rename_i heq
    exact absurd (List.cons.inj (List.cons.inj heq).2).1 (hne _ (by decide))
  · rename_i heq
    cases heq
    rfl
  · rename_i hno
    exact absurd rfl (hno _)

/-- A tag that opens an element, and closes it at once if it is empty. -/
lemma nextPiece_opening {word : List Char} {pairs : List (String × String)}
    (hword : isWord word = true) (hpairs : Named pairs) {d : Char} {mark : List Char} {empty : Bool}
    (hd : isWordChar d = false)
    (hmark : ∀ fuel, tagEnd? (fuel + 1) (d :: (mark ++ rest)) = some ([], empty, rest)) :
    nextPiece? ('<' :: (word ++ (writeAttributes pairs ++ d :: (mark ++ rest)))) =
      some (if empty then [.opening word (rawAttributes pairs), .closing word]
        else [.opening word (rawAttributes pairs)], rest) := by
  obtain ⟨e, more, htext, he⟩ : ∃ e more, writeAttributes pairs ++ d :: (mark ++ rest) = e :: more ∧
    isWordChar e = false := exists_behind_name pairs hd
  have hlength := length_le_writeAttributes pairs
  have hend : tagEnd? ((writeAttributes pairs ++ d :: (mark ++ rest)).length + 1)
      (writeAttributes pairs ++ (d :: mark ++ rest)) = some (rawAttributes pairs, empty, rest) :=
    tagEnd_attributes hpairs hmark (by rw [List.length_append]; omega)
  rw [List.cons_append] at hend
  rw [nextPiece_tag hword]
  rw [htext] at hend ⊢
  rw [name_append hword he]
  simp only [Option.bind_eq_bind, Option.bind_some, hend]

lemma nextPiece_closing {word : List Char} (hword : isWord word = true) :
    nextPiece? ('<' :: '/' :: (word ++ '>' :: rest)) = some ([.closing word], rest) := by
  have hclose : closes? ('>' :: rest) = some rest := rfl
  rw [nextPiece?, name_append hword (by decide)]
  simp only [Option.bind_eq_bind, Option.bind_some, hclose]

end

/-- A text is scanned to pieces, whatever number of steps it is given, if only one for each
character. -/
def Scans (cs : List Char) (ps : List Piece) : Prop :=
  ∃ raw expanded, (∀ fuel, cs.length ≤ fuel → piecesWithin? fuel cs = some raw) ∧
    raw.mapM (expandPiece? .none Entities.none.depth) = some expanded ∧
      joinText expanded.flatten = ps

namespace Scans

theorem nil : Scans [] [] := ⟨[], [], fun fuel _ => by cases fuel <;> rfl, rfl, rfl⟩

theorem pieces_eq {cs : List Char} {ps : List Piece} (h : Scans cs ps) :
    pieces? .none cs = some ps := by
  obtain ⟨raw, expanded, hraw, hexpanded, rfl⟩ := h
  simp [pieces?, rawPieces?, hraw _ (Nat.le_refl _), hexpanded]

/-- One step takes some pieces from the front. -/
theorem step {cs rest : List Char} {here : List RawPiece} {front ps : List Piece}
    (parts : List (List Piece)) (hnext : nextPiece? cs = some (here, rest))
    (hshort : rest.length < cs.length)
    (hexpand : here.mapM (expandPiece? .none Entities.none.depth) = some parts)
    (hjoin : ∀ more, joinText more = ps → joinText (parts.flatten ++ more) = front)
    (h : Scans rest ps) :
    Scans cs front := by
  obtain ⟨raw, expanded, hraw, hexpanded, hps⟩ := h
  refine ⟨here ++ raw, parts ++ expanded, fun fuel hfuel => ?_, ?_, ?_⟩
  · obtain ⟨fuel, rfl⟩ := Nat.exists_eq_add_one_of_ne_zero (show fuel ≠ 0 by omega)
    obtain ⟨c, more, rfl⟩ :=
      List.exists_cons_of_ne_nil (List.length_pos_iff.mp (Nat.zero_lt_of_lt hshort))
    rw [piecesWithin?, hnext]
    · simp only [Option.bind_eq_bind, Option.bind_some, hraw fuel (by omega)]
      rfl
    · exact List.cons_ne_nil c more
  · rw [List.mapM_append, hexpand, hexpanded]
    rfl
  · rw [List.flatten_append]
    exact hjoin _ hps

end Scans

/-! ## Trees -/

def blankPiece (level : Nat) : Piece := .text (newLine (some level)) true

/-- The piece of a text. An empty one leaves no trace. -/
def Node.textPieces : Node → List Piece
  | .text chars => if chars = "" then [] else [.text chars.toList true]
  | _ => []

/-- What stands between the tags of an element: nothing, its text, or the lines of the elements in
it. -/
def inside (content : List Node) (lines : List Piece) : List Piece :=
  if content.isEmpty then []
  else if content.any Node.isText then content.flatMap Node.textPieces
  else lines

mutual
/-- The pieces that a tree is laid out in: text in its element, and each other tag on a line of its
own. -/
def Node.pieces (level : Nat) : Node → List Piece
  | .element tag bindings attributes content =>
    let word := tag.written.toList
    let lines := Node.piecesAll (level + 1) content ++ [blankPiece level]
    .opening word (readAttributes (tagAttributes bindings attributes)) ::
      (inside content lines ++ [.closing word])
  | _ => []
def Node.piecesAll (level : Nat) : List Node → List Piece
  | [] => []
  | n :: rest => blankPiece level :: (n.pieces level ++ Node.piecesAll level rest)
end

lemma inside_elements {content : List Node} {lines : List Piece} (hne : content ≠ [])
    (htext : content.any Node.isText = false) : inside content lines = lines := by
  simp [inside, hne, htext]

@[simp] lemma inside_text (chars : String) (lines : List Piece) :
    inside [.text chars] lines = (Node.text chars).textPieces := by
  simp [inside, Node.isText]

/-- A text of characters that stand in names, which are written as they are. -/
def Worded (chars : String) : Prop := ∀ c ∈ chars.toList, isWordChar c = true

/-- A tree of elements that hold elements or one text of words, all of whose names and values can be
written. -/
inductive Tagged : Node → Prop
  | element {tag : QName} {bindings : List (String × String)} {attributes : List Attribute}
    {content : List Node} (name : isWord tag.written.toList = true)
    (named : Named (tagAttributes bindings attributes))
    (fit : ∀ a ∈ tagAttributes bindings attributes, Fit a.2.toList)
    (below : ∀ n ∈ content, Tagged n) : Tagged (.element tag bindings attributes content)
  | leaf {tag : QName} {bindings : List (String × String)} {attributes : List Attribute}
    {chars : String} (name : isWord tag.written.toList = true)
    (named : Named (tagAttributes bindings attributes))
    (fit : ∀ a ∈ tagAttributes bindings attributes, Fit a.2.toList)
    (worded : Worded chars) : Tagged (.element tag bindings attributes [.text chars])

lemma expand_opening (word : List Char) (pairs : List (String × String)) (depth : Nat) :
    expandPiece? .none depth (.opening word (rawAttributes pairs)) =
    some [.opening word (readAttributes pairs)] := by
  have hpairs : (rawAttributes pairs).mapM
      (fun a => (valueOf? .none Entities.none.depth a.2).map fun value =>
      (a.1, value)) = some (readAttributes pairs) := by
    induction pairs with
    | nil => rfl
    | cons a pairs ih =>
      rw [rawAttributes] at ih ⊢
      rw [List.map_cons, List.mapM_cons, valueOf_attributeParts, ih]
      rfl
  unfold expandPiece?
  simp only [hpairs]
  rfl

section
variable {rest : List Char} {ps : List Piece}

lemma scans_closing {word : List Char} (hword : isWord word = true) (h : Scans rest ps) :
    Scans ('<' :: '/' :: (word ++ '>' :: rest)) (.closing word :: ps) := by
  refine h.step [[.closing word]] (nextPiece_closing hword) ?_ rfl fun more hmore => ?_
  · simp
    omega
  · rw [← hmore]
    rfl

lemma scans_opening {word : List Char} {pairs : List (String × String)} (hword : isWord word = true)
    (hpairs : Named pairs) (h : Scans rest ps) :
    Scans ('<' :: (word ++ (writeAttributes pairs ++ '>' :: rest)))
      (.opening word (readAttributes pairs) :: ps) := by
  have hmark (fuel : Nat) : tagEnd? (fuel + 1) ('>' :: ([] ++ rest)) = some ([], false, rest) := rfl
  have hnext := nextPiece_opening hword hpairs (by decide) hmark
  refine h.step [[.opening word (readAttributes pairs)]] hnext ?_ ?_ fun more hmore => ?_
  · simp
    omega
  · simp [expand_opening]
  · rw [← hmore]
    rfl

/-- An empty tag opens an element and closes it. -/
lemma scans_empty {word : List Char} {pairs : List (String × String)} (hword : isWord word = true)
    (hpairs : Named pairs) (h : Scans rest ps) :
    Scans ('<' :: (word ++ (writeAttributes pairs ++ '/' :: '>' :: rest)))
      (.opening word (readAttributes pairs) :: .closing word :: ps) := by
  have hmark (fuel : Nat) : tagEnd? (fuel + 1) ('/' :: (['>'] ++ rest)) =
      some ([], true, rest) := rfl
  have hnext := nextPiece_opening hword hpairs (by decide) hmark
  have hclosing : expandPiece? .none Entities.none.depth (.closing word) =
      some [.closing word] := by
    unfold expandPiece?
    rfl
  refine h.step [[.opening word (readAttributes pairs)], [.closing word]] hnext ?_ ?_
    fun more hmore => ?_
  · simp
    omega
  · simp [expand_opening, hclosing]
  · rw [← hmore]
    rfl

/-! ## Text -/

/-- A text without the marks that begin a tag, a reference or the end of a section. -/
def Quiet (cs : List Char) : Prop := ∀ c ∈ cs, c ∉ ['<', '&', ']']

/-- Characters of a kind to which none of the marks belongs. -/
lemma quiet_of_all {p : Char → Bool} {cs : List Char}
    (hp : (['<', '&', ']'].all fun d => !p d) = true) (h : ∀ c ∈ cs, p c = true) : Quiet cs :=
  fun c hc => not_mem_of_all hp (h c hc)

lemma quiet_newLine (level : Option Nat) : Quiet (newLine level) :=
  quiet_of_all (p := isSpace) (by decide) fun _ hc => isSpace_of_mem_newLine hc

lemma Worded.quiet {chars : String} (h : Worded chars) : Quiet chars.toList :=
  quiet_of_all (p := isWordChar) (by decide) h

lemma parts_plain {cs : List Char} (h : '&' ∉ cs) : parts? cs = some (cs.map .plain) := by
  unfold parts?
  induction cs with
  | nil => rfl
  | cons c cs ih =>
    rw [List.mem_cons, not_or] at h
    have hc : (c == '&') = false := by simpa using Ne.symm h.1
    rw [partsFrom?]
    simp only [hc, Bool.false_eq_true, if_false, ih h.2]
    rfl

lemma hasSectionEnd_eq_false {cs : List Char} (h : ']' ∉ cs) : hasSectionEnd cs = false := by
  induction cs with
  | nil => rfl
  | cons c cs ih =>
    rw [List.mem_cons, not_or] at h
    have hafter : after? [']', ']', '>'] (c :: cs) = none := by simp [after?, h.1]
    rw [hasSectionEnd, hafter, ih h.2]
    rfl

/-- What begins with no mark is text up to the first one. -/
lemma nextPiece_of_ne {c : Char} (hc : c ≠ '<') (cs : List Char) : nextPiece? (c :: cs) = (do
    let front := (c :: cs).takeWhile (· != '<')
    if hasSectionEnd front then none
    let parts ← parts? front
    some ([.text parts], (c :: cs).dropWhile (· != '<'))) := by
  unfold nextPiece?
  split
  · rename_i heq
    exact absurd (List.cons.inj heq).1 hc
  · rename_i heq
    exact absurd (List.cons.inj heq).1 hc
  · rename_i heq
    exact absurd (List.cons.inj heq).1 hc
  · rename_i heq
    exact absurd (List.cons.inj heq).1 hc
  · rename_i heq
    exact absurd (List.cons.inj heq).1 hc
  · rfl

/-- Text is taken up to the next tag. -/
lemma nextPiece_text {cs : List Char} (hne : cs ≠ []) (hcs : Quiet cs)
    (hrest : ∀ c ∈ rest.head?, c = '<') :
    nextPiece? (cs ++ rest) = some ([.text (cs.map .plain)], rest) := by
  have hmark {d : Char} (hd : d ∈ ['<', '&', ']']) : d ∉ cs := fun hmem => hcs d hmem hd
  have hall : ∀ c ∈ cs, (c != '<') = true := fun c hc => by
    rw [bne_iff_ne]
    rintro rfl
    exact hmark (by simp) hc
  have hstop : ∀ c ∈ rest.head?, (c != '<') = false := fun c hc => by simp [hrest c hc]
  have hfront := takeWhile_front hall hstop
  have hback := dropWhile_front hall hstop
  obtain ⟨c, more, rfl⟩ := List.exists_cons_of_ne_nil hne
  have hc : c ≠ '<' := by simpa using hall c (by simp)
  rw [List.cons_append] at hfront hback ⊢
  simp only [nextPiece_of_ne hc, hfront, hback, hasSectionEnd_eq_false (hmark (d := ']') (by simp)),
    parts_plain (hmark (d := '&') (by simp)), Bool.false_eq_true, if_false, Option.bind_eq_bind,
    Option.bind_some]

lemma expand_plain (cs : List Char) (depth : Nat) :
    expandPiece? .none depth (.text (cs.map .plain)) = some (cs.map fun c => .text [c] true) := by
  have hparts (f : TextPart → Option (List Piece))
      (hf : ∀ c, f (.plain c) = some [.text [c] true]) :
      ((cs.map TextPart.plain).mapM f) = some (cs.map fun c => [.text [c] true]) := by
    induction cs with
    | nil => rfl
    | cons c cs ih =>
      rw [List.map_cons, List.mapM_cons, hf, ih]
      rfl
  unfold expandPiece?
  rw [hparts _ fun c => rfl, List.map_eq_flatMap (f := fun c => Piece.text [c] true)]
  rfl

/-- The characters of a text are joined, up to what is no text. -/
lemma joinText_chars {cs : List Char} {more : List Piece} (hne : cs ≠ [])
    (hmore : ∀ chars literal after, joinText more ≠ .text chars literal :: after) :
    joinText (cs.map (fun c => .text [c] true) ++ more) = .text cs true :: joinText more := by
  induction cs with
  | nil => exact absurd rfl hne
  | cons c cs ih =>
    rw [List.map_cons, List.cons_append, joinText]
    cases cs with
    | nil =>
      rw [List.map_nil, List.nil_append]
      split
      · rename_i heq
        exact absurd heq (hmore _ _ _)
      · rfl
    | cons d cs =>
      rw [ih (List.cons_ne_nil d cs)]
      rfl

lemma scans_text {cs : List Char} (hne : cs ≠ []) (hcs : Quiet cs)
    (hrest : ∀ c ∈ rest.head?, c = '<')
    (hps : ∀ chars literal after, ps ≠ .text chars literal :: after) (h : Scans rest ps) :
    Scans (cs ++ rest) (.text cs true :: ps) := by
  refine h.step [cs.map fun c => .text [c] true] (nextPiece_text hne hcs hrest) ?_ ?_
    fun more hmore => ?_
  · have hpos := List.length_pos_iff.mpr hne
    rw [List.length_append]
    omega
  · simp [expand_plain]
  · rw [List.flatten_singleton, joinText_chars hne (hmore ▸ hps), hmore]

lemma scans_newLine (level : Nat) (hrest : ∀ c ∈ rest.head?, c = '<')
    (hps : ∀ chars literal after, ps ≠ .text chars literal :: after) (h : Scans rest ps) :
    Scans (newLine (some level) ++ rest) (blankPiece level :: ps) :=
  scans_text (List.cons_ne_nil _ _) (quiet_newLine _) hrest hps h

/-- The words of an element are scanned to their piece, if there are any. -/
lemma scans_words {chars : String} (hwords : Worded chars) (hrest : ∀ c ∈ rest.head?, c = '<')
    (hps : ∀ chars literal after, ps ≠ .text chars literal :: after) (h : Scans rest ps) :
    Scans (chars.toList ++ rest) ((Node.text chars).textPieces ++ ps) := by
  rw [Node.textPieces]
  split
  · rename_i hempty
    rw [hempty]
    exact h
  · rename_i hne
    exact scans_text (fun hnil => hne (String.toList_eq_nil_iff.mp hnil)) hwords.quiet hrest hps h

end

/-! ## Written trees -/

/-- Scanning the text of a tree gives its pieces. -/
def ScansTree (n : Node) : Prop :=
  ∀ (level : Nat) {rest : List Char} {ps : List Piece}, Scans rest ps →
  Scans (n.write (some level) ++ rest) (n.pieces level ++ ps)

lemma Tagged.write_eq {n : Node} (h : Tagged n) (level : Option Nat) :
    ∃ c cs, n.write level = '<' :: c :: cs ∧ isNameStart c = true := by
  obtain ⟨tag, bindings, attributes, content, name, rfl⟩ : ∃ tag bindings attributes content,
      isWord tag.written.toList = true ∧ n = .element tag bindings attributes content := by
    cases h with
    | element name => exact ⟨_, _, _, _, name, rfl⟩
    | leaf name => exact ⟨_, _, _, _, name, rfl⟩
  obtain ⟨c, more, hword, hc⟩ := exists_of_isWord name
  rw [Node.write, hword]
  split
  · exact ⟨c, _, rfl, hc⟩
  · exact ⟨c, _, rfl, hc⟩

lemma Tagged.isText_eq {n : Node} (h : Tagged n) : n.isText = false := by
  cases h <;> rfl

lemma Tagged.no_text {content : List Node} (h : ∀ n ∈ content, Tagged n) :
    content.any Node.isText = false := by
  rw [List.any_eq_false]
  intro n hn
  simp [(h n hn).isText_eq]

lemma Tagged.pieces_ne_text {n : Node} (h : Tagged n) (level : Nat) (ps : List Piece)
    (chars : List Char) (literal : Bool) (after : List Piece) :
    n.pieces level ++ ps ≠ .text chars literal :: after := by
  cases h <;> simp [Node.pieces]

lemma scans_writeAll {ns : List Node} (h : ∀ n ∈ ns, Tagged n ∧ ScansTree n) (level : Nat)
    {rest : List Char} {ps : List Piece} (hrest : Scans rest ps) :
    Scans (Node.writeAll (some level) ns ++ rest) (Node.piecesAll level ns ++ ps) := by
  induction ns with
  | nil => exact hrest
  | cons n ns ih =>
    obtain ⟨⟨htagged, hscans⟩, hns⟩ := List.forall_mem_cons.mp h
    obtain ⟨c, cs, hcs, -⟩ := htagged.write_eq (some level)
    have hmore := hscans level (ih hns)
    rw [Node.writeAll, Node.piecesAll]
    simp only [List.append_assoc, List.cons_append]
    exact scans_newLine level (by simp [hcs]) (htagged.pieces_ne_text level _) hmore

section
variable (tag : QName) (bindings : List (String × String))
  (attributes : List Attribute) (level : Nat)

lemma write_empty : (Node.element tag bindings attributes []).write (some level) =
    '<' :: (tag.written.toList ++
    (writeAttributes (tagAttributes bindings attributes) ++ ['/', '>'])) := by
  rw [← write_attributes, Node.write]
  simp

lemma write_full {content : List Node} (hne : content ≠ [])
    (htext : content.any Node.isText = false) :
    (Node.element tag bindings attributes content).write (some level) =
    '<' :: (tag.written.toList ++
      (writeAttributes (tagAttributes bindings attributes) ++
      '>' :: (Node.writeAll (some (level + 1)) content ++
        (newLine (some level) ++ '<' :: '/' :: (tag.written.toList ++ ['>']))))) := by
  rw [← write_attributes, Node.write]
  simp [hne, htext]

lemma textChar_of_isWordChar {c : Char} (h : isWordChar c = true) : textChar c = [c] := by
  have hne : c ∉ ['&', '<', '>', '\r'] := not_mem_of_all (by decide) h
  simp only [List.mem_cons, List.not_mem_nil, or_false, not_or] at hne
  simp [textChar, hne]

/-- Words are written as they are. -/
lemma Worded.write_eq {chars : String} (h : Worded chars) :
    chars.toList.flatMap textChar = chars.toList := by
  have hchars := List.map_congr_left fun c hc => textChar_of_isWordChar (h c hc)
  rw [List.flatMap_def, hchars, ← List.flatMap_def]
  exact List.flatMap_singleton' _

lemma write_leaf {chars : String} (h : Worded chars) :
    (Node.element tag bindings attributes [.text chars]).write (some level) =
      '<' :: (tag.written.toList ++ (writeAttributes (tagAttributes bindings attributes) ++
        '>' :: (chars.toList ++ '<' :: '/' :: (tag.written.toList ++ ['>'])))) := by
  rw [← write_attributes, Node.write]
  simp [Node.isText, Node.writeAll, Node.write, newLine, h.write_eq]

end

/-- The text of a tree is scanned to its tags, laid out on lines. -/
theorem scansTree_of_tagged {n : Node} (h : Tagged n) : ScansTree n := by
  induction h with
  | @element tag bindings attributes content name named fit below ih =>
    intro level rest ps hrest
    by_cases hne : content = []
    · subst hne
      have hscans := scans_empty name named hrest
      rw [write_empty, Node.pieces]
      simpa [inside] using hscans
    · have hclosing := scans_newLine level (by simp) (by simp) (scans_closing name hrest)
      have hinner := scans_writeAll (fun n hn => ⟨below n hn, ih n hn⟩) (level + 1) hclosing
      have hscans := scans_opening name named hinner
      rw [write_full tag bindings attributes level hne (Tagged.no_text below), Node.pieces,
        inside_elements hne (Tagged.no_text below)]
      simpa using hscans
  | @leaf tag bindings attributes chars name named fit worded =>
    intro level rest ps hrest
    have hclosing := scans_closing name hrest
    have hwords := scans_words worded (by simp) (by simp) hclosing
    have hscans := scans_opening name named hwords
    rw [write_leaf tag bindings attributes level worded, Node.pieces, inside_text]
    simpa using hscans

end SchemaLoom.Xml
