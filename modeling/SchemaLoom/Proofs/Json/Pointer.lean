import Mathlib.Data.List.Basic
import SchemaLoom.Json.Reader
import SchemaLoom.Proofs.Text.Octets
import SchemaLoom.Proofs.Traversal

/-! References into a document: a fragment with escaped octets holds a pointer, which is a list of
tokens with escaped marks. Undoing an escape makes a text shorter, so that only texts without any
stand for themselves. -/
namespace SchemaLoom.Json
open Text (ofUtf8 octetCount)

/-! ## Fragments -/

/-- The octets of a fragment: an octet in two hexadecimal digits behind a percent sign, or those of
a character. An escape that is cut short is a fault. -/
def octets? : List Char → Option (List UInt8)
  | '%' :: high :: low :: rest => do
    let octet := (← hexDigit? high) * 16 + (← hexDigit? low)
    return UInt8.ofNat octet :: (← octets? rest)
  | [] => some []
  | c :: rest => if c = '%' then none else (String.utf8EncodeChar c ++ ·) <$> octets? rest

/-- The text that a fragment stands for, if its octets are one. -/
def fragmentText? (cs : List Char) : Option (List Char) := (octets? cs).bind fun octets =>
    (ofUtf8 octets).toOption

lemma octets_cons {c : Char} (hc : c ≠ '%') (rest : List Char) :
    octets? (c :: rest) = (octets? rest).map (String.utf8EncodeChar c ++ ·) := by
  rw [octets?]
  · rw [if_neg hc]
    rfl
  · exact fun _ _ _ h => absurd h hc

lemma octets_append {front : List Char} (h : '%' ∉ front) (cs : List Char) :
    octets? (front ++ cs) = (octets? cs).map (front.flatMap String.utf8EncodeChar ++ ·) := by
  induction front with
  | nil => simp
  | cons c front ih =>
    rw [List.mem_cons, not_or] at h
    rw [List.cons_append, octets_cons (Ne.symm h.1), ih h.2, List.flatMap_cons]
    simp [Function.comp_def]

lemma length_octets {cs : List Char} {octets : List UInt8} (h : octets? cs = some octets) :
    octets.length ≤ octetCount cs ∧ ('%' ∈ cs → octets.length < octetCount cs) := by
  induction cs using octets?.induct generalizing octets with
  | case1 high low rest ih =>
    rw [octets?] at h
    obtain ⟨a, -, h⟩ := Option.bind_eq_some_iff.mp h
    obtain ⟨b, -, h⟩ := Option.bind_eq_some_iff.mp h
    obtain ⟨below, hbelow, h⟩ := Option.bind_eq_some_iff.mp h
    cases h
    have hhigh := high.utf8Size_pos
    have hlow := low.utf8Size_pos
    have hsign := '%'.utf8Size_pos
    have hrest := (ih hbelow).1
    simp only [Text.octetCount_cons, List.length_cons]
    exact ⟨by omega, fun _ => by omega⟩
  | case2 =>
    cases h
    simp
  | case3 rest hcut =>
    rw [octets?] at h
    · cases h
    · exact hcut
  | case4 c rest hcut hc ih =>
    rw [octets_cons hc] at h
    obtain ⟨below, hbelow, rfl⟩ := Option.map_eq_some_iff.mp h
    obtain ⟨hle, hlt⟩ := ih hbelow
    simp only [Text.octetCount_cons, List.length_append, String.length_utf8EncodeChar]
    refine ⟨by omega, fun hmem => ?_⟩
    have hrest := hlt ((List.mem_cons.mp hmem).resolve_left (Ne.symm hc))
    omega

/-- A fragment without escapes in front is read as it is, and reading goes on behind it. -/
theorem fragmentText_append {front : List Char} (h : '%' ∉ front) (cs : List Char) :
    fragmentText? (front ++ cs) = (fragmentText? cs).map (front ++ ·) := by
  rw [fragmentText?, octets_append h, fragmentText?]
  cases octets? cs with
  | none => rfl
  | some octets => exact Text.ofUtf8_append front octets

/-- A fragment without escapes stands for itself. -/
theorem fragmentText_plain {cs : List Char} (h : '%' ∉ cs) : fragmentText? cs = some cs := by
  have happend := fragmentText_append h []
  rw [List.append_nil] at happend
  rw [happend]
  change some (cs ++ []) = some cs
  rw [List.append_nil]

lemma octetCount_fragmentText {cs text : List Char} (h : fragmentText? cs = some text) :
    octetCount text ≤ octetCount cs ∧ ('%' ∈ cs → octetCount text < octetCount cs) := by
  obtain ⟨octets, hoctets, htext⟩ := Option.bind_eq_some_iff.mp h
  obtain ⟨hle, hlt⟩ := length_octets hoctets
  have hcount := Text.octetCount_ofUtf8 (eq_ok_of_toOption htext)
  exact ⟨by omega, fun hmem => by have := hlt hmem; omega⟩

/-! ## Pointers -/

/-- A token of a pointer without its escapes: `~0` stands for a tilde and `~1` for a slash, and a
tilde for nothing by itself. -/
def unescape? : List Char → Option (List Char)
  | '~' :: '0' :: rest => ('~' :: ·) <$> unescape? rest
  | '~' :: '1' :: rest => ('/' :: ·) <$> unescape? rest
  | [] => some []
  | c :: rest => if c = '~' then none else (c :: ·) <$> unescape? rest

/-- The tokens of a pointer, each of which follows a slash. -/
def tokens? (pointer : List Char) : Option (List (List Char)) :=
  match pointer.splitOn '/' with
  | [] :: tokens => tokens.mapM unescape?
  | _ => none

/-- The part of a value that a token leads to: a member by its name, or an item by its index. -/
def Value.child? (token : List Char) : Value → Option Value
  | .object members => members.lookup (String.ofList token)
  | .array items =>
    ((List.range items.length).find? (Number.natText · == String.ofList token)).bind (items[·]?)
  | _ => none

/-- The part of a document that a reference within it leads to: a number sign and a fragment that
holds a pointer. -/
def Value.resolve? (document : Value) (reference : String) : Option Value :=
  match reference.toList with
  | '#' :: fragment => do
    let pointer ← fragmentText? fragment
    let tokens ← tokens? pointer
    tokens.foldlM (fun v token => v.child? token) document
  | _ => none

lemma unescape_cons {c : Char} (hc : c ≠ '~') (rest : List Char) :
    unescape? (c :: rest) = (unescape? rest).map (c :: ·) := by
  rw [unescape?]
  · rw [if_neg hc]
    rfl
  · exact fun _ h => absurd h hc
  · exact fun _ h => absurd h hc

/-- A token without escapes stands for itself. -/
lemma unescape_plain {cs : List Char} (h : '~' ∉ cs) : unescape? cs = some cs := by
  induction cs with
  | nil => rfl
  | cons c cs ih =>
    rw [List.mem_cons, not_or] at h
    rw [unescape_cons (Ne.symm h.1), ih h.2]
    rfl

lemma octetCount_unescape {cs token : List Char} (h : unescape? cs = some token) :
    octetCount token ≤ octetCount cs ∧ ('~' ∈ cs → octetCount token < octetCount cs) := by
  induction cs using unescape?.induct generalizing token with
  | case1 rest ih =>
    rw [unescape?] at h
    obtain ⟨below, hbelow, rfl⟩ := Option.map_eq_some_iff.mp h
    have hle := (ih hbelow).1
    have hdigit := '0'.utf8Size_pos
    simp only [Text.octetCount_cons]
    exact ⟨by omega, fun _ => by omega⟩
  | case2 rest ih =>
    rw [unescape?] at h
    obtain ⟨below, hbelow, rfl⟩ := Option.map_eq_some_iff.mp h
    have hle := (ih hbelow).1
    have hdigit := '1'.utf8Size_pos
    have hsame : '/'.utf8Size = '~'.utf8Size := rfl
    simp only [Text.octetCount_cons]
    exact ⟨by omega, fun _ => by omega⟩
  | case3 =>
    cases h
    simp
  | case4 rest hzero hone =>
    rw [unescape?] at h
    · cases h
    · exact hzero
    · exact hone
  | case5 c rest hzero hone hc ih =>
    rw [unescape_cons hc] at h
    obtain ⟨below, hbelow, rfl⟩ := Option.map_eq_some_iff.mp h
    obtain ⟨hle, hlt⟩ := ih hbelow
    simp only [Text.octetCount_cons]
    refine ⟨by omega, fun hmem => ?_⟩
    have hrest := hlt ((List.mem_cons.mp hmem).resolve_left (Ne.symm hc))
    omega

/-- What stands before the first slash of a text, and whether there is one. -/
lemma exists_splitOn (cs : List Char) : ∃ first rest, cs.splitOn '/' = first :: rest ∧
    octetCount first ≤ octetCount cs ∧ ('/' ∈ cs → octetCount first < octetCount cs) ∧
    ('/' ∉ cs → first = cs ∧ rest = []) := by
  by_cases h : '/' ∈ cs
  · obtain ⟨first, rest, rfl, hfirst⟩ := List.eq_append_cons_of_mem h
    refine ⟨first, rest.splitOn '/', ?_, ?_, fun _ => ?_, fun hno => absurd h hno⟩
    · refine List.splitOnP_append_cons_of_forall_mem (fun c hc => ?_) _ (by simp) _
      have hne : c ≠ '/' := fun he => hfirst (he ▸ hc)
      simpa using hne
    · simp only [Text.octetCount_append]
      omega
    · have hslash := '/'.utf8Size_pos
      simp only [Text.octetCount_append, Text.octetCount_cons]
      omega
  · exact ⟨cs, [], List.splitOn_eq_singleton h, Nat.le_refl _, fun hmem => absurd hmem h,
      fun _ => ⟨rfl, rfl⟩⟩

/-- Characters that mean something in a pointer within a reference. -/
def IsPlain (cs : List Char) : Prop := '%' ∉ cs ∧ '/' ∉ cs ∧ '~' ∉ cs

instance (cs : List Char) : Decidable (IsPlain cs) := inferInstanceAs (Decidable (_ ∧ _))

/-- A text that comes back as the first token of what it stands for has no marks in it. -/
lemma isPlain_of_first {cs text first token : List Char} {rest : List (List Char)}
    (htext : fragmentText? cs = some text) (hsplit : text.splitOn '/' = first :: rest)
    (htoken : unescape? first = some token) (hsame : token = cs) : IsPlain cs := by
  obtain ⟨htextLe, htextLt⟩ := octetCount_fragmentText htext
  obtain ⟨first', rest', hsplit', hfirstLe, hfirstLt, hfirst⟩ := exists_splitOn text
  obtain ⟨rfl, rfl⟩ := List.cons.inj (hsplit.symm.trans hsplit')
  obtain ⟨htokenLe, htokenLt⟩ := octetCount_unescape htoken
  rw [hsame] at htokenLe htokenLt
  have hpercent : '%' ∉ cs := fun h => by have := htextLt h; omega
  obtain rfl : cs = text := Option.some.inj ((fragmentText_plain hpercent).symm.trans htext)
  have hslash : '/' ∉ cs := fun h => by have := hfirstLt h; omega
  obtain ⟨rfl, -⟩ := hfirst hslash
  exact ⟨hpercent, hslash, fun h => by have := htokenLt h; omega⟩

/-- A reference that begins with one plain token leads from the part of that token on. -/
lemma resolve_below {members : List (String × Value)} {key : String}
    (hkey : IsPlain key.toList) {inner : Value} (hinner : members.lookup key = some inner)
    (name : String) :
    (Value.object members).resolve? ("#/" ++ key ++ "/" ++ name) =
    (fragmentText? name.toList).bind fun text =>
      ((text.splitOn '/').mapM unescape?).bind fun tokens =>
      tokens.foldlM (fun v token => v.child? token) inner := by
  obtain ⟨hpercent, hslash, htilde⟩ := hkey
  have hlist : ("#/" ++ key ++ "/" ++ name).toList =
      '#' :: (('/' :: key.toList ++ ['/']) ++ name.toList) := by
    simp [String.toList_append]
  have hfront : '%' ∉ '/' :: key.toList ++ ['/'] := by simpa using hpercent
  rw [Value.resolve?, hlist]
  simp only [fragmentText_append hfront]
  cases fragmentText? name.toList with
  | none => rfl
  | some text =>
    have hsplit : ('/' :: key.toList ++ ['/'] ++ text).splitOn '/' =
        [] :: key.toList :: text.splitOn '/' := by
      have hkeySplit : (key.toList ++ '/' :: text).splitOn '/' =
          key.toList :: text.splitOn '/' := by
        refine List.splitOnP_append_cons_of_forall_mem (fun c hc => ?_) _ (by simp) _
        have hne : c ≠ '/' := fun he => hslash (he ▸ hc)
        simpa using hne
      have hfirst : ([] ++ '/' :: (key.toList ++ '/' :: text)).splitOn '/' =
          [] :: (key.toList ++ '/' :: text).splitOn '/' :=
        List.splitOnP_append_cons_of_forall_mem (by simp) _ (by simp) _
      rw [← hkeySplit, ← hfirst]
      simp
    simp only [Option.map_some, Option.bind_eq_bind, Option.bind_some, tokens?,
      hsplit, List.mapM_cons, unescape_plain htilde]
    cases (text.splitOn '/').mapM unescape? with
    | none => rfl
    | some tokens =>
      have hchild : (Value.object members).child? key.toList = some inner := by
        rw [Value.child?, String.ofList_toList, hinner]
      simp [hchild]

/-! ## Escaping -/

/-- A token with escapes for the marks of pointers. -/
def escape (cs : List Char) : List Char :=
  cs.flatMap fun c => if c = '~' then ['~', '0'] else if c = '/' then ['~', '1'] else [c]

/-- A fragment with an escape for every percent sign. -/
def escapeFragment (cs : List Char) : List Char :=
  cs.flatMap fun c => if c = '%' then ['%', '2', '5'] else [c]

theorem unescape_escape (cs : List Char) : unescape? (escape cs) = some cs := by
  induction cs with
  | nil => rfl
  | cons c cs ih =>
    rw [escape, List.flatMap_cons, ← escape]
    split
    · subst c
      change (unescape? (escape cs)).map ('~' :: ·) = _
      rw [ih]
      rfl
    · split
      · subst c
        change (unescape? (escape cs)).map ('/' :: ·) = _
        rw [ih]
        rfl
      · rename_i htilde _
        rw [List.singleton_append, unescape_cons htilde, ih]
        rfl

lemma slash_not_mem_escape (cs : List Char) : '/' ∉ escape cs := by
  intro h
  obtain ⟨c, -, hc⟩ := List.mem_flatMap.mp h
  split at hc
  · simp at hc
  · split at hc
    · simp at hc
    · rename_i hne
      exact hne (List.mem_singleton.mp hc).symm

lemma octets_escapeFragment (cs : List Char) :
    octets? (escapeFragment cs) = some (cs.flatMap String.utf8EncodeChar) := by
  induction cs with
  | nil => rfl
  | cons c cs ih =>
    rw [escapeFragment, List.flatMap_cons, ← escapeFragment, List.flatMap_cons]
    split
    · subst c
      change (octets? (escapeFragment cs)).bind (fun octets => some (37 :: octets)) = _
      rw [ih]
      rfl
    · rename_i hne
      rw [List.singleton_append, octets_cons hne, ih]
      rfl

theorem fragmentText_escapeFragment (cs : List Char) :
    fragmentText? (escapeFragment cs) = some cs := by
  rw [fragmentText?, octets_escapeFragment, Option.bind_some, ofUtf8, Text.utf8Decode_text]
  rfl

end SchemaLoom.Json
