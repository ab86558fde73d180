import Mathlib.Data.List.Nodup
import Mathlib.Data.List.TakeWhile
import SchemaLoom.Proofs.Traversal
import SchemaLoom.Proofs.Xml.RoundTrip

/-! Which opening tags are understood: names with qualifiers that are bound or without any,
attributes without qualifiers, and bindings that are allowed. -/
namespace SchemaLoom.Xml

/-! ## Names in two parts -/

lemma ne_colon_of_isNameChar {c : Char} (h : isNameChar c = true) : c ≠ ':' := by
  rintro rfl
  cases h

lemma forall_ne_colon {cs : List Char} (h : isPlainName cs = true) :
    ∀ c ∈ cs, (c != ':') = true := by
  cases cs with
  | nil => cases h
  | cons c rest =>
    obtain ⟨hc, hrest⟩ := Bool.and_eq_true_iff.mp h
    refine List.forall_mem_cons.mpr
      ⟨bne_iff_ne.mpr (ne_of_isNameStart hc (by decide)), fun d hd => ?_⟩
    exact bne_iff_ne.mpr (ne_colon_of_isNameChar (List.all_eq_true.mp hrest d hd))

lemma splitName_plain {cs : List Char} (h : isPlainName cs = true) :
    splitName? cs = some ([], cs) := by
  have hall := forall_ne_colon h
  have hfront : cs.takeWhile (· != ':') = cs := List.takeWhile_eq_self_iff.mpr hall
  have hback : cs.dropWhile (· != ':') = [] := List.dropWhile_eq_nil_iff.mpr hall
  simp [splitName?, hfront, hback, h]

lemma splitName_parts {front back : List Char} (hfront : isPlainName front = true)
    (hback : isPlainName back = true) :
    splitName? (front ++ ':' :: back) = some (front, back) := by
  have hall := forall_ne_colon hfront
  have hstop : ∀ c ∈ (':' :: back).head?, (c != ':') = false := by simp
  simp [splitName?, takeWhile_front hall hstop, dropWhile_front hall hstop, hfront, hback]

lemma isWord_of_isPlainName {cs : List Char} (h : isPlainName cs = true) : isWord cs = true := by
  cases cs with
  | nil => cases h
  | cons c rest =>
    obtain ⟨hc, hrest⟩ := Bool.and_eq_true_iff.mp h
    rw [isWord, hc, Bool.true_and, List.all_eq_true]
    intro d hd
    rw [isWordChar, List.all_eq_true.mp hrest d hd, Bool.true_or]

lemma isWord_parts {front back : List Char} (hfront : isPlainName front = true)
    (hback : isPlainName back = true) :
    isWord (front ++ ':' :: back) = true := by
  have hf := isWord_of_isPlainName hfront
  have hb := isWord_of_isPlainName hback
  cases front with
  | nil => cases hfront
  | cons c more =>
    cases back with
    | nil => cases hback
    | cons d rest =>
      simp only [isWord, List.cons_append, List.all_append, List.all_cons,
        Bool.and_eq_true] at hf hb ⊢
      refine ⟨hf.1, hf.2, by decide, ?_, hb.2⟩
      simp [isWordChar, isNameChar, hb.1]

/-! ## Opening tags -/

/-- Names that are told apart stay so with the same thing in front of each. -/
lemma nodup_map_mk {α β γ : Type} (a : α) {f : γ → β} {xs : List γ} (h : (xs.map f).Nodup) :
    (xs.map fun x => (a, f x)).Nodup := by
  have hpairs := h.map (f := Prod.mk a) fun _ _ he => (Prod.mk.inj he).2
  rwa [List.map_map] at hpairs

/-- A qualifier that can be written: none at all, or a plain name. -/
def IsQualifier (qualifier : String) : Prop := qualifier = "" ∨ isPlainNameText qualifier = true

/-- A tag with names that can be told apart and are known, whatever its bindings bind them to. -/
structure Clear (scope : Scope) (tag : QName) (bindings : List (String × String))
    (attributes : List Attribute) : Prop where
  qualifier : IsQualifier tag.qualifier
  qualifies : tag.qualifier ≠ "xmlns"
  localPart : isPlainNameText tag.localPart = true
  known : Scope.find? (bindings ++ scope) tag.qualifier = tag.uri
  qualified : tag.qualifier ≠ "" → tag.uri.isSome = true
  unhidden : tag.uri ≠ some ""
  bound : ∀ b ∈ bindings, IsQualifier b.1 ∧ b.1 ≠ "xml"
  boundOnce : (bindings.map Prod.fst).Nodup
  given : ∀ a ∈ attributes, a.name = .plain a.name.localPart ∧
    isPlainNameText a.name.localPart = true ∧ a.name.localPart ≠ "xmlns"
  givenOnce : (attributes.map (·.name.localPart)).Nodup

/-- A binding as an attribute that declares it: qualifier, local part and value. -/
def rawBinding (b : String × String) : RawAttribute :=
  if b.1 = "" then ("", "xmlns", b.2) else ("xmlns", b.1, b.2)

/-- The attributes of a tag as qualifier, local part and value. -/
def splitAttributes (bindings : List (String × String)) (attributes : List Attribute) :
    List RawAttribute :=
  bindings.map rawBinding ++ attributes.map fun a => ("", a.name.localPart, a.value)

lemma written_plain {name : QName} (h : name = .plain name.localPart) :
    name.written = name.localPart := by
  rw [h]
  rfl

lemma toList_bindingName (qualifier : String) :
    ("xmlns:" ++ qualifier).toList = "xmlns".toList ++ ':' :: qualifier.toList := by
  rw [String.toList_append]
  rfl

section
variable {scope : Scope} {tag : QName} {bindings : List (String × String)}
  {attributes : List Attribute}

/-- The name that a binding is written under, in its two parts. -/
lemma splitName_binding {b : String × String} (h : IsQualifier b.1) :
    splitName? (if b.1 == "" then "xmlns" else "xmlns:" ++ b.1).toList =
      some ((rawBinding b).1.toList, (rawBinding b).2.1.toList) := by
  unfold rawBinding
  obtain hempty | hname := h
  · simp only [hempty, beq_self_eq_true, if_true]
    decide
  · have hne : b.1 ≠ "" := by
      rintro he
      rw [he] at hname
      cases hname
    have hmark : isPlainName "xmlns".toList = true := by decide
    simp only [hne, if_false, beq_eq_false_iff_ne.mpr hne, Bool.false_eq_true, toList_bindingName,
      splitName_parts hmark hname]

@[simp] lemma rawBinding_value (b : String × String) : (rawBinding b).2.2 = b.2 := by
  unfold rawBinding
  split <;> rfl

/-- What is read of a tag's attributes before it is known what they are for. -/
lemma Clear.split (h : Clear scope tag bindings attributes) (written : List Char) :
    (readAttributes (tagAttributes bindings attributes)).mapM (fun (name, value) => do
      let (qualifier, part) ← splitName? name
      let words := DocumentType.none.wordAttributes.contains
        (String.ofList written, String.ofList name)
      let value := if words then asWords value else value
      some (String.ofList qualifier, String.ofList part, String.ofList value)) =
        some (splitAttributes bindings attributes) := by
  rw [readAttributes, tagAttributes, splitAttributes, List.map_append, List.mapM_append,
    List.map_map, List.map_map, List.mapM_map, List.mapM_map, mapM_eq_some (g := rawBinding),
    mapM_eq_some (g := fun a : Attribute => ("", a.name.localPart, a.value))]
  · rfl
  · intro a ha
    obtain ⟨hname, hpart, -⟩ := h.given a ha
    simp [written_plain hname, splitName_plain hpart, DocumentType.none]
  · intro b hb
    simp only [Function.comp_apply, splitName_binding (h.bound b hb).1]
    simp [DocumentType.none, Prod.ext_iff]

/-- Bindings of different qualifiers are declared by attributes of different names. -/
lemma rawBinding_inj {b c : String × String}
    (h : ((rawBinding b).1, (rawBinding b).2.1) = ((rawBinding c).1, (rawBinding c).2.1)) :
    b.1 = c.1 := by
  unfold rawBinding at h
  split at h <;> split at h <;> simp_all

/-- No attribute of a clear tag has the name of one that declares a binding. -/
lemma Clear.given_ne_bound (h : Clear scope tag bindings attributes) {a : Attribute}
    (ha : a ∈ attributes) (b : String × String) :
    ((rawBinding b).1, (rawBinding b).2.1) ≠ ("", a.name.localPart) := by
  have hne := (h.given a ha).2.2
  intro he
  unfold rawBinding at he
  split at he
  · exact hne (Prod.mk.inj he).2.symm
  · have hmarks : "xmlns" = "" := congrArg Prod.fst he
    exact absurd hmarks (by decide)

lemma Clear.distinct (h : Clear scope tag bindings attributes) :
    allDistinct ((splitAttributes bindings attributes).map
      fun (qualifier, name, _) => (qualifier, name)) = true := by
  rw [allDistinct_iff, splitAttributes, List.map_append, List.map_map, List.map_map]
  apply List.nodup_append.mpr
  refine ⟨?_, nodup_map_mk "" h.givenOnce, ?_⟩
  · exact h.boundOnce.of_map.map_on fun b hb c hc he =>
      List.inj_on_of_nodup_map h.boundOnce hb hc (rawBinding_inj he)
  · intro x hx y hy he
    obtain ⟨b, -, rfl⟩ := List.mem_map.mp hx
    obtain ⟨a, ha, rfl⟩ := List.mem_map.mp hy
    exact h.given_ne_bound ha b he

/-- Which binding each attribute declares. -/
lemma Clear.found (h : Clear scope tag bindings attributes)
    (hallowed : ∀ b ∈ bindings, binding? (rawBinding b) = some (some b)) :
    (splitAttributes bindings attributes).mapM binding? =
      some (bindings.map some ++ attributes.map fun _ => none) := by
  have hbindings : (bindings.map rawBinding).mapM binding? = some (bindings.map some) := by
    rw [List.mapM_map]
    exact mapM_eq_some hallowed
  have hattributes : (attributes.map fun a => ("", a.name.localPart, a.value)).mapM binding? =
      some (attributes.map fun _ => none) := by
    rw [List.mapM_map]
    apply mapM_eq_some
    intro a ha
    have hne := (h.given a ha).2.2
    simp [binding?, hne]
  rw [splitAttributes, List.mapM_append, hbindings, hattributes]
  rfl

/-- The attributes that declare no binding. -/
lemma others_splitAttributes : ((splitAttributes bindings attributes).zip
    (bindings.map some ++ attributes.map fun _ => none)).filterMap
      (fun (a, binding) => if binding.isNone then some a else none) =
        attributes.map fun a => ("", a.name.localPart, a.value) := by
  rw [splitAttributes, List.zip_append (by simp), List.filterMap_append,
    List.zip_map', List.zip_map']
  simp [List.filterMap_map]

lemma ne_empty_of_plain {name : String} (h : isPlainNameText name = true) : name ≠ "" := by
  rintro rfl
  cases h

/-- The written name of a clear tag has the parts of its name. -/
lemma Clear.splitName_tag (h : Clear scope tag bindings attributes) :
    splitName? tag.written.toList = some (tag.qualifier.toList, tag.localPart.toList) := by
  obtain hempty | hname := h.qualifier
  · rw [QName.written, hempty]
    exact splitName_plain h.localPart
  · simp only [QName.written, beq_eq_false_iff_ne.mpr (ne_empty_of_plain hname),
      Bool.false_eq_true, if_false, String.toList_append, List.append_assoc]
    exact splitName_parts hname h.localPart

/-- A clear tag can be written. -/
lemma Clear.isWord_tag (h : Clear scope tag bindings attributes) :
    isWord tag.written.toList = true := by
  obtain hempty | hname := h.qualifier
  · rw [QName.written, hempty]
    exact isWord_of_isPlainName h.localPart
  · simp only [QName.written, beq_eq_false_iff_ne.mpr (ne_empty_of_plain hname),
      Bool.false_eq_true, if_false, String.toList_append, List.append_assoc]
    exact isWord_parts hname h.localPart

lemma Clear.named (h : Clear scope tag bindings attributes) :
    Named (tagAttributes bindings attributes) := by
  intro a ha
  obtain ha | ha := List.mem_append.mp ha
  · obtain ⟨b, hb, rfl⟩ := List.mem_map.mp ha
    dsimp only
    split
    · decide
    · rename_i hne
      obtain hempty | hname := (h.bound b hb).1
      · exact absurd (beq_iff_eq.mpr hempty) hne
      · rw [toList_bindingName]
        exact isWord_parts (by decide) hname
  · obtain ⟨c, hc, rfl⟩ := List.mem_map.mp ha
    obtain ⟨hname, hpart, -⟩ := h.given c hc
    rw [written_plain hname]
    exact isWord_of_isPlainName hpart

/-- Attributes without qualifiers are in no namespace, so that their local parts tell them apart. -/
lemma Clear.resolved (h : Clear scope tag bindings attributes) (inner : Scope) :
    (attributes.map fun a => ("", a.name.localPart, a.value)).mapM (attributeIn? inner) =
    some attributes ∧
      allDistinct (attributes.map fun a => (a.name.uri, a.name.localPart)) = true := by
  constructor
  · have hall : attributes.mapM (fun a => attributeIn? inner ("", a.name.localPart, a.value)) =
        some (attributes.map id) := by
      apply mapM_eq_some
      rintro ⟨name, value⟩ ha
      have hname : name = .plain name.localPart := (h.given _ ha).1
      rw [hname]
      rfl
    rw [List.mapM_map]
    rwa [List.map_id] at hall
  · have hkeys : attributes.map (fun a => (a.name.uri, a.name.localPart)) =
        attributes.map fun a => ((none : Option String), a.name.localPart) := by
      apply List.map_congr_left
      intro a ha
      have huri : a.name.uri = none := congrArg QName.uri (h.given a ha).1
      rw [huri]
    rw [allDistinct_iff, hkeys]
    exact nodup_map_mk none h.givenOnce

/-- A clear tag is in no namespace without a qualifier, or it is in one that is found. -/
lemma Clear.uri_cases (h : Clear scope tag bindings attributes) :
    (tag.qualifier = "" ∧ tag.uri = none) ∨ ∃ uri, tag.uri = some uri ∧ uri ≠ "" := by
  cases huri : tag.uri with
  | none =>
    refine .inl ⟨?_, rfl⟩
    by_contra hne
    simpa [huri] using h.qualified hne
  | some uri => exact .inr ⟨uri, rfl, fun he => h.unhidden (by rw [huri, he])⟩

/-- A clear tag is understood if its bindings are allowed. -/
theorem Clear.opens (h : Clear scope tag bindings attributes)
    (hallowed : ∀ b ∈ bindings, binding? (rawBinding b) = some (some b)) :
    openElement? .none scope tag.written.toList
      (readAttributes (tagAttributes bindings attributes)) =
        some ⟨tag.written.toList, tag, bindings, attributes, bindings ++ scope, []⟩ := by
  have hbindings : ((bindings.map some ++ attributes.map fun _ => none).filterMap id).filter
      (·.1 != "xml") = bindings := by
    have hfound : (bindings.map some ++ attributes.map fun _ => none).filterMap id = bindings := by
      simp [List.filterMap_map]
    rw [hfound, List.filter_eq_self]
    intro b hb
    exact bne_iff_ne.mpr (h.bound b hb).2
  obtain ⟨hresolved, hnames⟩ := h.resolved (bindings ++ scope)
  rw [openElement?, h.split]
  simp only [h.distinct, h.found hallowed, hbindings, others_splitAttributes, hresolved, hnames,
    h.splitName_tag, Option.bind_eq_bind, Option.bind_some, Bool.not_true, Bool.false_eq_true,
    if_false, String.ofList_toList, h.known, beq_eq_false_iff_ne.mpr h.qualifies]
  have htag (uri : Option String) (huri : tag.uri = uri) :
      (⟨tag.qualifier, tag.localPart, uri⟩ : QName) = tag := by rw [← huri]
  obtain ⟨hempty, hnone⟩ | ⟨uri, hsome, hne⟩ := h.uri_cases
  · rw [hnone, ← htag none hnone]
    simp [hempty]
  · rw [hsome, ← htag _ hsome]
    cases tag.qualifier == "" <;> simp [hne]

/-- A tag with a binding that is not allowed is not understood. -/
theorem Clear.refuses (h : Clear scope tag bindings attributes) {b : String × String}
    (hb : b ∈ bindings) (hforbidden : binding? (rawBinding b) = none) :
    openElement? .none scope tag.written.toList
      (readAttributes (tagAttributes bindings attributes)) = none := by
  have hmem : rawBinding b ∈ splitAttributes bindings attributes :=
    List.mem_append_left _ (List.mem_map_of_mem hb)
  rw [openElement?, h.split]
  simp only [h.distinct, mapM_eq_none hmem hforbidden, Option.bind_eq_bind, Option.bind_some,
    Option.bind_none, Bool.not_true, Bool.false_eq_true, if_false]

end
end SchemaLoom.Xml
