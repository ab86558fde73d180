import SchemaLoom.Proofs.Number.Reading
import SchemaLoom.Proofs.Profile.Range
import SchemaLoom.Proofs.Xml.Opening
import SchemaLoom.Proofs.Xsd.Closure
import SchemaLoom.Xsd.Check

/-! The check of a schema, one part at a time: what a part must be for it to pass, where its names
and references are plain. -/
namespace SchemaLoom.Xsd
open Xml (Node)
open Profile (Primitive Facet)

/-! ## Names in a row -/

section
variable {names rest : List String} {name : String} {s : Step} {steps : List Step}

@[simp] lemma follows_nil (steps : List Step) : follows steps [] = true := by
  cases steps <;> simp [follows]

/-- A step none of whose names occurs is left out. -/
lemma follows_skip (h : ∀ name ∈ rest, name ∉ s.names) :
    follows (s :: steps) rest = follows steps rest := by
  cases rest with
  | nil => rw [follows_nil, follows_nil]
  | cons name rest =>
    rw [follows]
    simp [h name List.mem_cons_self]

/-- A step that stands once is done with its name. -/
lemma follows_once (h : name ∈ names) :
    follows (once names :: steps) (name :: rest) = follows steps rest := by
  rw [follows]
  simp [once, h]

/-- One part, which stands where a note could stand before it. -/
lemma follows_one (hnote : name ≠ "annotation") (h : name ∈ names) :
    follows (note :: once names :: steps) [name] = true := by
  rw [follows_skip (by simpa [note, once] using hnote), follows_once h]
  exact follows_nil _

/-- A step that repeats takes any number of its names. -/
lemma follows_often (h : ∀ name ∈ rest, name ∈ names) :
    follows (often names :: steps) rest = true := by
  induction rest with
  | nil => exact follows_nil _
  | cons name rest ih =>
    rw [follows]
    simp only [often, List.contains_eq_mem, h name (by simp), decide_true, if_true]
    exact ih fun name hname => h name (List.mem_cons_of_mem _ hname)

end

/-! ## Names and numbers as values -/

lemma not_isSpace_of_isNameChar {c : Char} (h : Xml.isNameChar c = true) :
    Xml.isSpace c = false := by
  rw [← Bool.not_eq_true]
  intro hspace
  simp only [Xml.isSpace, Bool.or_eq_true, beq_iff_eq] at hspace
  obtain ((rfl | rfl) | rfl) | rfl := hspace
  all_goals exact absurd h (by decide)

lemma trimSpace_eq_self {s : String} (h : ∀ c ∈ s.toList, Xml.isSpace c = false) :
    trimSpace s = s.toList :=
  Text.trimBy_eq_self h

lemma trimSpace_plain {s : String} (h : Xml.isPlainNameText s) : trimSpace s = s.toList :=
  trimSpace_eq_self fun c hc => not_isSpace_of_isNameChar (isNameChar_of_mem h c hc)

lemma isNameValue_plain {s : String} (h : Xml.isPlainNameText s) : isNameValue s = true := by
  rw [isNameValue, trimSpace_plain h]
  exact h

lemma natural_natText (n : Nat) : natural? (Number.natText n) = some n := by
  have hdigits : ∀ c ∈ Nat.toDigits 10 n, c.isDigit = true := fun c hc =>
    Nat.isDigit_of_mem_toDigits (by decide) (by decide) hc
  have htrim : trimSpace (Number.natText n) = Nat.toDigits 10 n := by
    rw [← Number.toList_natText]
    refine trimSpace_eq_self fun c hc => ?_
    rw [Number.toList_natText] at hc
    exact not_isSpace_of_isNameChar (by simp [Xml.isNameChar, hdigits c hc])
  have hall : (Nat.toDigits 10 n).all Char.isDigit = true := List.all_eq_true.mpr hdigits
  have hne : (Nat.toDigits 10 n).isEmpty = false := by simp
  simp [natural?, htrim, hall, hne, Number.ofDigits_toDigits]

/-! ## References -/

/-- Qualifiers of a scope stand for the namespace of schemas and for that of a schema itself, if it
has one. -/
structure Understood (d : Declared) (scope : List (String × String)) : Prop where
  schemas : scope.lookup "xs" = some schemaUri
  target : scope.lookup "tns" = d.uri
  bare : scope.lookup "" = none
  other : d.uri ≠ some schemaUri

lemma resolve_qualified {name : String} (hplain : Xml.isPlainNameText name)
    (scope : List (String × String)) :
    resolve? scope ("tns:" ++ name) = (scope.lookup "tns").map fun uri => (some uri, name) := by
  have hlist : ("tns:" ++ name).toList = ['t', 'n', 's'] ++ ':' :: name.toList :=
    String.toList_append
  have hspace : ∀ c ∈ ("tns:" ++ name).toList, Xml.isSpace c = false := by
    intro c hc
    rw [hlist] at hc
    obtain hc | hc := List.mem_append.mp (show c ∈ ['t', 'n', 's', ':'] ++ name.toList from hc)
    · have hall : ∀ c ∈ ['t', 'n', 's', ':'], Xml.isSpace c = false := by simp [Xml.isSpace]
      exact hall c hc
    · exact not_isSpace_of_isNameChar (isNameChar_of_mem hplain c hc)
  have hback : Xml.isPlainName name.toList = true := hplain
  have hfront : Xml.isPlainName ['t', 'n', 's'] = true := by decide
  rw [resolve?, trimSpace_eq_self hspace, hlist, Xml.splitName_parts hfront hback]
  simp

section
variable {d : Declared} {scope : List (String × String)} (h : Understood d scope)
  {own builtin : List String}
include h

lemma Understood.refers_primitive
    (hbuiltin : ["string", "decimal", "integer", "date", "dateTime", "boolean"] ⊆ builtin)
    (p : Primitive) : refers d scope own builtin p.reference = true := by
  have hresolve : ∃ name ∈ ["string", "decimal", "integer", "date", "dateTime", "boolean"],
      resolve? scope p.reference = (scope.lookup "xs").map fun uri => (some uri, name) := by
    cases p
    · exact ⟨"string", by decide, rfl⟩
    · exact ⟨"decimal", by decide, rfl⟩
    · exact ⟨"integer", by decide, rfl⟩
    · exact ⟨"date", by decide, rfl⟩
    · exact ⟨"dateTime", by decide, rfl⟩
    · exact ⟨"boolean", by decide, rfl⟩
  obtain ⟨name, hname, hresolve⟩ := hresolve
  rw [h.schemas] at hresolve
  simpa [refers, hresolve] using hbuiltin hname

/-- What refers to a type of the schema leads to it. -/
lemma Understood.refers_type {name : String} (hplain : Xml.isPlainNameText name)
    (hbare : IsBare name) (hown : name ∈ own) :
    refers d scope own builtin (qualify d.uri.isSome name) = true := by
  rw [qualify_of_isBare hbare]
  have hother := h.other
  have htarget := h.target
  cases huri : d.uri with
  | none =>
    have hresolve : resolve? scope name = some (none, name) := by
      simp [resolve?, trimSpace_plain hplain, Xml.splitName_plain hplain, h.bare]
    simp [refers, hresolve, huri, hown]
  | some uri =>
    rw [huri] at hother htarget
    have hresolve : resolve? scope ("tns:" ++ name) = some (some uri, name) := by
      rw [resolve_qualified hplain, htarget]
      rfl
    have hne : uri ≠ schemaUri := fun heq => hother (congrArg some heq)
    simp [refers, hresolve, huri, hne, hown]

end

/-! ## Parts -/

lemma contentNames_eq {n : Node} (h : ∀ k ∈ n.content, ∃ tag, k.tag? = some (tagOf tag)) :
    contentNames n = n.content.filterMap Node.localName? := by
  refine List.filterMap_congr fun k hk => ?_
  obtain ⟨tag, htag⟩ := h k hk
  cases k with
  | element name bindings attributes content =>
    obtain rfl : name = tagOf tag := Option.some.inj htag
    rfl
  | text chars => cases htag
  | instruction target => cases htag

/-- The names of parts that are made of something, one of each. -/
lemma contentNames_map {α : Type} {f : α → Node} {name : α → String} (tag : String)
    (attributes : List (String × String))
    (h : ∀ x, (f x).tag? = some (tagOf (name x))) (xs : List α) :
    contentNames (part tag attributes (xs.map f)) = xs.map name := by
  have hlocal : Node.localName? ∘ f = some ∘ name := funext fun x => by
    simp [Node.localName?, h x, tagOf]
  rw [contentNames_eq, content_part, List.filterMap_map, hlocal, List.filterMap_eq_map]
  simpa using fun x _ => ⟨_, h x⟩

section
variable {d : Declared} {scope : List (String × String)} {around tag : String}
  {attributes : List (String × String)} {content : List Node}

lemma allPartsWell_iff {ns : List Node} :
    allPartsWell d scope around ns = true ↔ ∀ n ∈ ns, partsWell d scope around n = true := by
  induction ns with
  | nil => simp [allPartsWell]
  | cons n rest ih => simp [allPartsWell, ih]

/-- A part stands where it may, with attributes that it may have, and refers to what there is. -/
structure Placed (d : Declared) (scope : List (String × String)) (around tag : String)
    (attributes : List (String × String)) (content : List Node) : Prop where
  known : attributes.map Prod.fst ⊆ attributesOf (around == "schema") tag
  follows : follows (contentSteps (part tag attributes content) around tag)
    (contentNames (part tag attributes content)) = true
  refers : refersWell d scope (part tag attributes content) around tag = true
  shaped : shapedWell (part tag attributes content) around tag = true
  facet : tag ∈ facetNames → facetWell (part tag attributes content) tag = true

lemma placed_of_not_facet (hfacet : tag ∉ facetNames)
    (known : attributes.map Prod.fst ⊆ attributesOf (around == "schema") tag)
    (hfollows : Xsd.follows (contentSteps (part tag attributes content) around tag)
      (contentNames (part tag attributes content)) = true)
    (refers : refersWell d scope (part tag attributes content) around tag = true)
    (shaped : shapedWell (part tag attributes content) around tag = true) :
    Placed d scope around tag attributes content :=
  ⟨known, hfollows, refers, shaped, fun hmem => absurd hmem hfacet⟩

/-- A part that is well placed passes if its name, the names of the attributes in it and its bounds
are right, and what is in it passes. -/
lemma partsWell_part (h : Placed d scope around tag attributes content)
    (htag : tag ≠ "annotation") :
    partsWell d scope around (part tag attributes content) = true ↔
      namedWell (part tag attributes content) (around == "schema") tag = true ∧
      (namesIn (part tag attributes content) "attribute").Nodup ∧
      occursWell (part tag attributes content) = true ∧
      ∀ n ∈ content, partsWell d scope tag n = true := by
  have hpart : partWell d scope (part tag attributes content) around tag = true ↔
      namedWell (part tag attributes content) (around == "schema") tag = true ∧
      (namesIn (part tag attributes content) "attribute").Nodup ∧
      occursWell (part tag attributes content) = true := by
    have hfacet : (!facetNames.contains tag || facetWell (part tag attributes content) tag) =
        true := by
      by_cases hmem : tag ∈ facetNames
      · simp [h.facet hmem]
      · simp [hmem]
    unfold partWell
    simp only [h.follows, h.refers, h.shaped, hfacet, Bool.and_true, Bool.and_eq_true,
      allDistinct_iff, and_assoc]
    refine and_iff_right (List.all_eq_true.mpr fun a ha => ?_)
    obtain ⟨b, hb, rfl⟩ := List.mem_map.mp ha
    exact List.contains_iff_mem.mpr (h.known (List.mem_map_of_mem hb))
  have hall : partsWell d scope around (part tag attributes content) =
      (partWell d scope (part tag attributes content) around tag &&
        (tag == "annotation" || allPartsWell d scope tag content)) := rfl
  rw [hall, Bool.and_eq_true, hpart, Bool.or_eq_true, beq_iff_eq, or_iff_right htag,
    allPartsWell_iff, and_assoc, and_assoc]

/-- Bindings of a part are bindings around it. -/
lemma partsWell_bound (bindings : List (String × String)) :
    partsWell d scope around
        (.element (tagOf tag) bindings
        (attributes.map fun (name, value) => ⟨.plain name, value⟩) content) =
      partsWell d (bindings ++ scope) around (part tag attributes content) := rfl

/-- No names of attributes are found where there are no attributes. -/
lemma namesIn_eq_nil {n : Node} {name : String} (h : ∀ k ∈ n.content, k.localName? ≠ some name) :
    namesIn n name = [] := by
  have hnone : n.childrenNamed name = [] := List.filter_eq_nil_iff.mpr fun k hk => by
    simpa using h k hk
  rw [namesIn, hnone]
  rfl

/-- A part without bounds occurs once. -/
lemma occursWell_once {n : Node} (hleast : n.attribute? "minOccurs" = none)
    (hmost : n.attribute? "maxOccurs" = none) :
    occursWell n = true := by
  unfold occursWell
  rw [hleast, hmost]
  decide

/-- The upper end of a range is within the limit of what is counted. -/
def IsLimited (r : Profile.Range) : Prop := ∀ most, r.upper = .finite most → most ≤ occursLimit

/-- Bounds in order are right if they are within the limit. -/
lemma occursWell_iff {n : Node} {r : Profile.Range} (hr : r.Proper)
    (hleast : n.attribute? "minOccurs" = some (Number.text r.lower))
    (hmost : n.attribute? "maxOccurs" = some r.upper.text) : occursWell n = true ↔ IsLimited r := by
  obtain ⟨lower, upper⟩ := r
  obtain ⟨least, rfl⟩ := Int.eq_ofNat_of_zero_le hr.lower
  have hlower : natural? (Number.text (least : Int)) = some least := natural_natText least
  unfold occursWell
  rw [hleast, hmost]
  dsimp only [Option.getD_some]
  rw [hlower]
  cases upper with
  | unbounded => simp [IsLimited, Profile.Bound.text]
  | finite most =>
    have hle : (least : Int) ≤ most := hr.upper most rfl
    obtain ⟨most, rfl⟩ := Int.eq_ofNat_of_zero_le (Int.le_trans (Int.natCast_nonneg least) hle)
    have hupper : natural? (Number.text (most : Int)) = some most := natural_natText most
    have hlimited : IsLimited ⟨least, .finite most⟩ ↔ most ≤ occursLimit := by simp [IsLimited]
    rw [hlimited, Profile.Bound.text]
    dsimp only
    split
    · rename_i heq
      have hnone : natural? "unbounded" = none := by decide
      rw [heq, hnone] at hupper
      cases hupper
    · rw [hupper]
      simp only [Bool.and_eq_true, Bool.or_eq_true, decide_eq_true_eq, beq_iff_eq]
      omega

/-- A part that is well placed, without attributes to declare and without bounds, passes if its name
is right and what is in it passes. -/
lemma partsWell_once (h : Placed d scope around tag attributes content) (htag : tag ≠ "annotation")
    (hnone : ∀ n ∈ content, n.localName? ≠ some "attribute")
    (hbounds : attributes.lookup "minOccurs" = none ∧ attributes.lookup "maxOccurs" = none) :
    partsWell d scope around (part tag attributes content) = true ↔
      namedWell (part tag attributes content) (around == "schema") tag = true ∧
      ∀ n ∈ content, partsWell d scope tag n = true := by
  have hnames : namesIn (part tag attributes content) "attribute" = [] := namesIn_eq_nil hnone
  have hoccurs : occursWell (part tag attributes content) = true :=
    occursWell_once ((attribute_part _).trans hbounds.1) ((attribute_part _).trans hbounds.2)
  rw [partsWell_part h htag, hnames, hoccurs]
  simp

end
end SchemaLoom.Xsd
