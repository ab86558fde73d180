import SchemaLoom.Proofs.Xsd.Rearrangement

/-! Permissive mode goes by the first declaration of a name. Of a later one it counts how often the
element may occur; what else it says, and what is in it, may be anything. -/
namespace SchemaLoom.Xsd
open Profile (Declaration Facts Siblings Range AttributeUse Source ElementProfile nameOf
  elementTag attributeTag)
open Xml (Node)

/-- A declaration that is not the first one of its name gives way to another one, of the same name
and occurring as often. -/
inductive Substitution : List Node → List Node → Prop
  | here {before after : List Node} {n m : Node} (hn : n.localName? = some elementTag)
    (hm : m.localName? = some elementTag) (hname : nameOf m = nameOf n)
    (hrange : Profile.rangeOf m = Profile.rangeOf n)
    (hlater : nameOf n ∈ (declaring before).map nameOf) :
    Substitution (before ++ n :: after) (before ++ m :: after)
  /-- It does so in some element. -/
  | inside {before after content content' : List Node} (tag : Xml.QName)
      (bindings : List (String × String))
    (attributes : List Xml.Attribute) (h : Substitution content content') :
    Substitution (before ++ .element tag bindings attributes content :: after)
      (before ++ .element tag bindings attributes content' :: after)

section
variable {s : Settings}

/-! ## One declaration among others -/

section
variable {before : List Declaration} {d d' : Declaration} (hname : d'.name = d.name)
include hname

lemma ranges_replace (after : List Declaration) (hrange : d'.range = d.range) (name : String) :
    ((before ++ d' :: after).filter (·.name == name)).map Declaration.range =
      ((before ++ d :: after).filter (·.name == name)).map Declaration.range := by
  rw [List.filter_append, List.filter_append, List.map_append, List.map_append, List.filter_cons,
    List.filter_cons, hname]
  congr 1
  split
  · rw [List.map_cons, List.map_cons, hrange]
  · rfl

/-- A declaration behind one of the same name is not the first of its name, whatever it is. -/
lemma find_replace (after : List Declaration)
    (h : d.name ∈ before.map Declaration.name ∨ s.outline d' = s.outline d) (name : String) :
    ((before ++ d' :: after).find? (·.name == name)).map s.outline =
      ((before ++ d :: after).find? (·.name == name)).map s.outline := by
  rw [List.find?_append, List.find?_append]
  cases hbefore : before.find? (·.name == name) with
  | some e => rfl
  | none =>
    rw [Option.none_or, Option.none_or, List.find?_cons, List.find?_cons, hname]
    cases heq : d.name == name with
    | false => rfl
    | true =>
      obtain hmem | houtline := h
      · obtain ⟨e, he, hsame⟩ := List.mem_map.mp hmem
        have hother := List.find?_eq_none.mp hbefore e he
        rw [hsame] at hother
        exact absurd heq hother
      · exact congrArg some houtline

/-- Outlines say the same of declarations where one of a name that was met before is replaced, or
one is replaced by another one of its outline. -/
lemma lines_replace (after : List Declaration) (hrange : d'.range = d.range)
    (h : d.name ∈ before.map Declaration.name ∨ s.outline d' = s.outline d) :
    s.lines (before ++ d' :: after) = s.lines (before ++ d :: after) := by
  have hnames : (Siblings.byName Declaration.name (before ++ d' :: after)).map Siblings.name =
      (Siblings.byName Declaration.name (before ++ d :: after)).map Siblings.name := by
    rw [Siblings.names_byName, Siblings.names_byName, List.map_append,
      List.map_append, List.map_cons, List.map_cons, hname]
  refine map_eq_map_of_keys hnames fun g hg k hk hgk => ?_
  have hmembers : g.range Declaration.range = k.range Declaration.range := by
    refine Siblings.range_congr fun r => ?_
    rw [(Siblings.mem_byName.mp hg).2, (Siblings.mem_byName.mp hk).2, hgk,
      ranges_replace hname after hrange]
  have hfirst : s.outline g.first = s.outline k.first := by
    have hfind := find_replace hname after h k.name
    rw [Siblings.find_first hk, ← hgk, Siblings.find_first hg] at hfind
    exact Option.some.inj hfind
  rw [Settings.line, Settings.line, hgk, hmembers, hfirst]

end

/-! ## Substitutions in documents -/

lemma Substitution.attributes {xs ys : List Node} (h : Substitution xs ys) :
    (xs.filter (·.localName? == some attributeTag)).map AttributeUse.ofNode =
      (ys.filter (·.localName? == some attributeTag)).map AttributeUse.ofNode := by
  cases h with
  | here hn hm =>
    rw [List.filter_append, List.filter_append,
      List.filter_cons_of_neg (by rw [not_attribute_of_element hn]; decide),
      List.filter_cons_of_neg (by rw [not_attribute_of_element hm]; decide)]
  | @inside before after content content' tag bindings attributes _ =>
    have htag : (Node.element tag bindings attributes content).localName? =
      (Node.element tag bindings attributes content').localName? := rfl
    rw [List.filter_append, List.filter_append, List.filter_cons, List.filter_cons, htag]
    split
    · rw [List.map_append, List.map_append]
      -- What a declaration of an attribute says does not depend on its content.
      rfl
    · rfl

/-- A substitution changes nothing that outlines say of the declarations. -/
theorem Substitution.lines {xs ys : List Node} (h : Substitution xs ys) :
    s.lines (Declaration.ofNodes ys) = s.lines (Declaration.ofNodes xs) := by
  induction h with
  | @here before after n m hn hm hname hrange hlater =>
    rw [ofNodes_append, ofNodes_append, Declaration.ofNodes, Declaration.ofNodes,
      if_pos (by simp [hm]), if_pos (by simp [hn])]
    refine lines_replace ?_ _ ?_ (.inl ?_)
    · rwa [Profile.name_ofNode, Profile.name_ofNode]
    · rwa [Declaration.range, Profile.facts_ofNode, Declaration.range, Profile.facts_ofNode]
    · rwa [names_declaring, Profile.name_ofNode]
  | @inside before after content content' tag bindings attributes h ih =>
    rw [ofNodes_append, ofNodes_append]
    by_cases htag : tag.localPart = elementTag
    · rw [ofNodes_element htag, ofNodes_element htag, ← facts_of_attributes h.attributes]
      refine lines_replace ?_ _ ?_ (.inr ?_)
      · rfl
      · rfl
      · rw [Settings.outline_eq, Settings.outline_eq]
        exact congrArg (Outline.mk _ _ _ _) ih
    · have hskip (content : List Node) :
          ¬((Node.element tag bindings attributes content).localName? == some elementTag) =
            true := by
        rw [beq_iff_eq]
        exact fun h => htag (Option.some.inj h)
      rw [Declaration.ofNodes, Declaration.ofNodes, if_neg (hskip content), if_neg (hskip content')]

end

/-- In permissive mode what becomes of a document does not depend on what a declaration says that is
not the first one of its name, apart from how often the element may occur. -/
theorem permissive_compile_of_substitution {s : Settings} (hmode : s.mode = .permissive)
    {document document' : Node} {source source' : Source}
    (hdoc : Source.ofDocument document = .ok source)
    (hdoc' : Source.ofDocument document' = .ok source') (huri : source.uri = source'.uri)
    (h : Substitution source.holder.content source'.holder.content) :
    compile s source.profile = compile s source'.profile ∧
    convert s document = convert s document' := by
  have haccepts (ds : List Declaration) : s.Accepts ds := fun hstrict => by
    rw [hmode] at hstrict
    cases hstrict
  have hlines : s.lines source.profile.roots = s.lines source'.profile.roots := by
    rw [roots_profile_eq, roots_profile_eq, h.lines]
  have hcompile : compile s source.profile = compile s source'.profile := by
    rw [compile_eq_draft (haccepts _), compile_eq_draft (haccepts _), draft_of_lines huri hlines]
  refine ⟨hcompile, ?_⟩
  rw [convert, convert, Profile.profile_ofDocument hdoc, Profile.profile_ofDocument hdoc']
  exact congrArg (Except.map Schema.text) hcompile

/-- Items that are numbers and hold an order that differs from itself. -/
def strangeItems : Node :=
  .element (.plain elementTag) []
    [⟨.plain "name", "item"⟩, ⟨.plain "maxOccurs", "5"⟩, ⟨.plain "dataType", "number"⟩]
    [orderOf written, orderOf []]

lemma substitution_strangeItems : Substitution (orderSource written).holder.content
    (orderSource [fewItems, strangeItems]).holder.content := by
  have hitems : Substitution ([fewItems] ++ manyItems :: []) ([fewItems] ++ strangeItems :: []) :=
    .here rfl rfl (by decide +kernel) (by decide +kernel) (by decide +kernel)
  have hinside {xs ys : List Node} (h : Substitution xs ys) :
      Substitution ([] ++ orderOf xs :: []) ([] ++ orderOf ys :: []) := .inside _ _ _ h
  exact hinside hitems

lemma permissive_compile_written :
    compile (.standard .permissive true) (orderSource written).profile = .ok orderSchema := by
  have hdigest : ∀ e ∈ orderTable, (Settings.standard .permissive true).digest e.1 = e.2 :=
    digest_orderTable
  rw [← Settings.digest_table orderTable hdigest]
  decide +kernel

/-- The schema of the order stays when its second declaration of items is exchanged. -/
theorem strangeItems_compiled_as_written :
    Source.ofDocument (orderDocument written) = .ok (orderSource written) ∧
    Source.ofDocument (orderDocument [fewItems, strangeItems]) =
    .ok (orderSource [fewItems, strangeItems]) ∧
    Substitution (orderSource written).holder.content
    (orderSource [fewItems, strangeItems]).holder.content ∧
    compile (.standard .permissive true) (orderSource [fewItems, strangeItems]).profile =
    .ok orderSchema ∧
    convert (.standard .permissive true) (orderDocument written) =
      convert (.standard .permissive true) (orderDocument [fewItems, strangeItems]) := by
  have hsame := permissive_compile_of_substitution (s := .standard .permissive true) rfl
    (ofDocument_order written) (ofDocument_order [fewItems, strangeItems]) rfl
      substitution_strangeItems
  refine ⟨ofDocument_order _, ofDocument_order _, substitution_strangeItems, ?_, hsame.2⟩
  rw [← hsame.1]
  exact permissive_compile_written

end SchemaLoom.Xsd
