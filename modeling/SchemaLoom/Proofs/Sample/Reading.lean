import SchemaLoom.Proofs.Profile.Document
import SchemaLoom.Proofs.Sample.Specimen
import SchemaLoom.Proofs.Xml.Height
import SchemaLoom.Proofs.Xml.Opening
import SchemaLoom.Proofs.Xml.Settled
import SchemaLoom.Proofs.Xsd.Reading

/-! A sample is read back as it was built, without its empty texts, unless the namespace of its
profile is one that no document can take for its default one. -/
namespace SchemaLoom.Sample
open Profile (Declaration Siblings Forest)
open Xml (Node QName Tagged Readable Clear Scope)
open Xsd (isReserved)

/-- A declaration whose specimen has a tag that can be written: no attribute is a binding. -/
structure Writable (d : Declaration) : Prop extends Named d where
  unbound : ∀ a ∈ d.attributes, a.name ≠ "xmlns"

section
variable {uri : Option String} {d : Declaration} {own : List (String × String)} {outer : Scope}

@[simp] lemma localPart_tagFor (uri : Option String) (name : String) :
    (tagFor uri name).localPart = name := by
  cases uri <;> rfl

@[simp] lemma uri_tagFor (uri : Option String) (name : String) : (tagFor uri name).uri = uri := by
  cases uri <;> rfl

lemma qualifier_tagFor (uri : Option String) (name : String) :
    (tagFor uri name).qualifier = if uri = some Xml.xmlNamespace then "xml" else "" := by
  cases uri with
  | none => rfl
  | some given => simp [tagFor]

/-- The namespace of a sample is found where it is the default one. -/
lemma find_rootBindings (uri : Option String) (name : String) :
    Scope.find? (rootBindings uri) (tagFor uri name).qualifier = uri := by
  rw [qualifier_tagFor]
  split
  · rename_i hxml
    rw [hxml]
    rfl
  · cases uri <;> rfl

/-- All that an element of a sample can bind is the default namespace. -/
lemma eq_of_mem_own {b : String × String} (hscope : own ++ outer = rootBindings uri)
    (hb : b ∈ own) : ∃ given, uri = some given ∧ b = ("", given) := by
  have hroot : b ∈ rootBindings uri := hscope ▸ List.mem_append_left outer hb
  cases uri with
  | none => cases hroot
  | some given => exact ⟨given, rfl, List.mem_singleton.mp hroot⟩

/-- The tag of a specimen is clear where its namespace is the default one. -/
lemma clear_specimen (hd : Writable d) (huri : uri ≠ some "")
    (hscope : own ++ outer = rootBindings uri) :
    Clear outer (tagFor uri d.name) own (d.attributes.map attributeFor) where
  qualifier := by
    rw [qualifier_tagFor]
    split
    · exact .inr (by decide)
    · exact .inl rfl
  qualifies := by
    rw [qualifier_tagFor]
    split <;> decide
  localPart := by
    rw [localPart_tagFor]
    exact hd.name
  known := by rw [hscope, find_rootBindings, uri_tagFor]
  qualified := by
    rw [qualifier_tagFor, uri_tagFor]
    split
    · rename_i hxml
      rw [hxml]
      exact fun _ => rfl
    · exact fun hne => absurd rfl hne
  unhidden := by rwa [uri_tagFor]
  bound := by
    intro b hb
    obtain ⟨given, -, rfl⟩ := eq_of_mem_own hscope hb
    exact ⟨.inl rfl, by simp⟩
  boundOnce := by
    have hsub : own.Sublist (rootBindings uri) := hscope ▸ List.sublist_append_left own outer
    refine List.Nodup.sublist (hsub.map Prod.fst) ?_
    cases uri <;> simp [rootBindings]
  given := by
    intro a ha
    obtain ⟨use, huse, rfl⟩ := List.mem_map.mp ha
    exact ⟨rfl, hd.attributes use huse, hd.unbound use huse⟩
  givenOnce := by
    rw [List.map_map]
    exact hd.distinct

lemma fit_of_isLegalText {s : String} (h : Xml.isLegalText s = true) : Xml.Fit s.toList :=
  List.all_eq_true.mp h

/-- All values in the tag of a specimen can be written. -/
lemma fit_specimen (hlegal : ∀ given, uri = some given → Xml.isLegalText given = true)
    (hscope : own ++ outer = rootBindings uri) :
    ∀ a ∈ Xml.tagAttributes own (d.attributes.map attributeFor), Xml.Fit a.2.toList := by
  intro a ha
  obtain ha | ha := List.mem_append.mp ha
  · obtain ⟨b, hb, rfl⟩ := List.mem_map.mp ha
    obtain ⟨given, hgiven, rfl⟩ := eq_of_mem_own hscope hb
    exact fit_of_isLegalText (hlegal given hgiven)
  · rw [List.map_map] at ha
    obtain ⟨use, -, rfl⟩ := List.mem_map.mp ha
    exact fun c hc => ((worded_sampleText use.primitive use.facets).clean c hc).1

lemma mem_specimens {uri : Option String} {d : Declaration} {m : Node}
    (h : m ∈ d.groups.flatMap fun g =>
      List.replicate (leastOf (g.range Declaration.range)) (specimen uri g.first [])) :
    ∃ e ∈ d.children, m = specimen uri e [] := by
  obtain ⟨g, hg, hm⟩ := List.mem_flatMap.mp h
  exact ⟨g.first, Declaration.first_mem_children hg, List.eq_of_mem_replicate hm⟩

/-- The namespace of a sample may be bound unless it is reserved. -/
lemma binding_own {b : String × String} (huri : uri ≠ some "")
    (hreference : ∀ given, uri = some given → Uri.isReference given = true)
    (hscope : own ++ outer = rootBindings uri) (hb : b ∈ own) :
    Xml.binding? (Xml.rawBinding b) = if isReserved uri then none else some (some b) := by
  obtain ⟨given, rfl, rfl⟩ := eq_of_mem_own hscope hb
  have hne : given ≠ "" := fun he => huri (by rw [he])
  simp [Xml.rawBinding, Xml.binding?, isReserved, hne, hreference given rfl]

lemma settledAll_specimens (uri : Option String) (d : Declaration) :
    Node.settledAll (d.groups.flatMap fun g =>
        List.replicate (leastOf (g.range Declaration.range)) (specimen uri g.first [])) =
      (d.groups.flatMap fun g =>
        List.replicate (leastOf (g.range Declaration.range)) (specimen uri g.first [])).map
          Node.settled := by
  apply Node.settledAll_eq_map
  intro m hm
  obtain ⟨e, -, rfl⟩ := mem_specimens hm
  rw [specimen_eq]
  rfl

variable {F : Forest} (hF : ∀ d, F.Has d → Writable d) (huri : uri ≠ some "")
include hF huri

/-- A specimen can be written. -/
theorem tagged_specimen (hlegal : ∀ given, uri = some given → Xml.isLegalText given = true) :
    ∀ d, F.Has d → ∀ own outer, own ++ outer = rootBindings uri → Tagged (specimen uri d own) := by
  intro d
  induction d using Declaration.induction with
  | h f children ih =>
    intro hd own outer hscope
    have hclear := clear_specimen (hF _ hd) huri hscope
    have hfit := fit_specimen (d := .mk f children) hlegal hscope
    rw [specimen_eq]
    split
    · exact .leaf hclear.isWord_tag hclear.named hfit (worded_sampleText _ _)
    · refine .element hclear.isWord_tag hclear.named hfit fun m hm => ?_
      obtain ⟨e, he, rfl⟩ := mem_specimens hm
      exact ih e he (hd.child he) [] _ rfl

variable (hreference : ∀ given, uri = some given → Uri.isReference given = true)
include hreference

/-- A specimen is understood in its scope, without empty texts. It is no higher than the element
that its declaration was read from. -/
theorem readable_specimen (hfree : isReserved uri = false) :
    ∀ n : Node, F.Has (.ofNode n) → ∀ height, n.height ≤ height → ∀ own outer,
      own ++ outer = rootBindings uri →
        Readable (height + 1) outer (specimen uri (.ofNode n) own).settled := by
  intro n
  induction n using Node.induction with
  | h n ih =>
    intro hd height hheight own outer hscope
    have hopens := (clear_specimen (hF _ hd) huri hscope).opens fun b hb => by
      rw [binding_own huri hreference hscope hb, hfree]
      rfl
    rw [specimen_eq, Node.settled]
    split
    · rw [Node.settledAll_text]
      split
      · exact .element hopens (by simp)
      · rename_i hne
        exact .leaf hopens hne (worded_sampleText _ _)
    · rw [settledAll_specimens]
      refine .element hopens fun settled hsettled => ?_
      obtain ⟨m, hm, rfl⟩ := List.mem_map.mp hsettled
      obtain ⟨e, he, rfl⟩ := mem_specimens hm
      have hhas := hd.child he
      rw [Profile.children_ofNode] at he
      obtain ⟨k, hk, rfl⟩ := List.mem_map.mp he
      have hmem : k ∈ n.content := (List.mem_filter.mp hk).1
      -- An element in the element leaves room for itself and for one level more.
      have hlower := Node.height_lt_of_mem hmem
      obtain ⟨height, rfl⟩ := Nat.exists_eq_add_one_of_ne_zero (show height ≠ 0 by omega)
      exact ih k hmem hhas height (by omega) [] _ hscope

/-- The document of a specimen is read back without its empty texts, unless its namespace is
reserved. -/
theorem ofText_specimen (hlegal : ∀ given, uri = some given → Xml.isLegalText given = true)
    {n : Node} (hd : F.Has (.ofNode n)) (hheight : n.height < Xml.depthLimit) :
    Xml.ofText? (specimen uri (.ofNode n) (rootBindings uri)).document =
      if isReserved uri then none else some
      (specimen uri (.ofNode n) (rootBindings uri)).settled := by
  have hscope : rootBindings uri ++ [] = rootBindings uri := List.append_nil _
  have htagged := tagged_specimen hF huri hlegal _ hd _ _ hscope
  cases hreserved : isReserved uri with
  | false =>
    have hreadable :=
      readable_specimen hF huri hreference hreserved n hd _ (Nat.le_refl _) _ _ hscope
    exact Xml.ofText_document_settled htagged hreadable hheight
  | true =>
    cases uri with
    | none => cases hreserved
    | some given =>
      have hmem : ("", given) ∈ rootBindings (some given) := by simp [rootBindings]
      have hrefused := binding_own huri hreference hscope hmem
      rw [hreserved] at hrefused
      rw [specimen_eq] at htagged ⊢
      exact Xml.ofText_document_eq_none htagged
        ((clear_specimen (hF _ hd) huri hscope).refuses hmem hrefused)

end
end SchemaLoom.Sample
