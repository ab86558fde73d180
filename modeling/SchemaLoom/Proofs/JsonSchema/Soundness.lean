import SchemaLoom.Proofs.Json.Reading
import SchemaLoom.Proofs.JsonSchema.Metaschema
import SchemaLoom.Proofs.Profile.Shape
import SchemaLoom.Proofs.Text.Reading

/-! Schemas that are made of profiles, against the metaschema of their draft: all that they say is
as it has to be, but for names that a list of required ones repeats. -/
namespace SchemaLoom.JsonSchema
open Json (Value)
open Profile (Shape ObjectProfile objectShape rootObject?)

/-- Keywords that hold schemas by name. -/
def mapKeywords : List String := ["properties", "definitions", "$defs"]

/-- A value is a schema as far as its keywords go, and so is every schema in it: types are named,
maps are objects, and required names are a list of texts that is not empty, each a property of the
same object. `D` is what the list has to be beside that. -/
inductive IsSchema (D : List String → Prop) : Value → Prop
  | keywords {members : List (String × Value)}
    (type : ∀ v, members.lookup "type" = some v → ∃ name ∈ legalTypes, v = .string name)
    (maps : ∀ key ∈ mapKeywords, ∀ v, members.lookup key = some v → ∃ known, v = .object known)
    (parts : ∀ key ∈ mapKeywords, ∀ known part, members.lookup key = some (.object known) →
      part ∈ known → IsSchema D part.2)
    (items : ∀ v, members.lookup "items" = some v → IsSchema D v)
    (required : ∀ v, members.lookup "required" = some v → ∃ names, v = .array (names.map .string) ∧
      names ≠ [] ∧ D names ∧ ∃ known, members.lookup "properties" = some (.object known) ∧
        ∀ name ∈ names, name ∈ known.map Prod.fst) :
    IsSchema D (.object members)

/-- The entries of an object that count: of those of one name the last. -/
def counted (entries : List (String × Bool × Shape)) : List (String × Shape) :=
  Json.ofMembers (entries.map fun e => (e.1, e.2.2))

/-- In a shape, the required names of an object that counts are some and are not as `D` asks. -/
inductive Breaks (D : List String → Prop) : Shape → Prop
  | here {entries : List (String × Bool × Shape)} (hsome : requiredNames entries ≠ [])
    (h : ¬D (requiredNames entries)) : Breaks D (.object entries)
  | entry {entries : List (String × Bool × Shape)} {e : String × Shape} (he : e ∈ counted entries)
    (h : Breaks D e.2) : Breaks D (.object entries)
  | item {item : Shape} (h : Breaks D item) : Breaks D (.array item)

lemma mem_of_mem_counted {entries : List (String × Bool × Shape)} {e : String × Shape}
    (h : e ∈ counted entries) : ∃ entry ∈ entries, e = (entry.1, entry.2.2) := by
  obtain ⟨entry, hentry, rfl⟩ := List.mem_map.mp (Json.mem_of_mem_ofMembers h)
  exact ⟨entry, hentry, rfl⟩

lemma ofMembers_propertiesOf (entries : List (String × Bool × Shape)) :
    Json.ofMembers (propertiesOf entries) =
      (counted entries).map fun e => (e.1, Value.object (membersOf e.2)) := by
  have hpairs : propertiesOf entries =
      (entries.map fun e => (e.1, e.2.2)).map fun p => (p.1, Value.object (membersOf p.2)) := by
    rw [propertiesOf_eq, List.map_map]
    rfl
  rw [hpairs, Json.ofMembers_map (fun shape => Value.object (membersOf shape))]
  rfl

/-- Every required name is one that counts. -/
lemma requiredNames_subset (entries : List (String × Bool × Shape)) :
    ∀ name ∈ requiredNames entries, name ∈ (counted entries).map Prod.fst := by
  intro name hname
  apply Json.mem_names_ofMembers.mpr
  obtain ⟨⟨n, required, shape⟩, he, hsome⟩ := List.mem_filterMap.mp hname
  simp only [Option.ite_none_right_eq_some, Option.some.injEq] at hsome
  rw [List.map_map]
  exact List.mem_map.mpr ⟨_, he, hsome.2⟩

/-- What the members of a schema are for a shape: those of the shape, perhaps with others beside
them that hold no schemas. -/
structure SchemaOf (d : Draft) (members : List (String × Value)) (shape : Shape) : Prop where
  written : Written d members
  same : ∀ key ∈ ["type", "properties", "required", "items", "definitions", "$defs"],
    members.lookup key = (membersOf shape).lookup key

section
variable {d : Draft} {members : List (String × Value)} {entries : List (String × Bool × Shape)}
  {item : Shape} {type : Option String}

lemma SchemaOf.properties (h : SchemaOf d members (.object entries)) :
    members.lookup "properties" =
      some (.object ((counted entries).map fun e => (e.1, Value.object (membersOf e.2)))) := by
  rw [h.same _ (by simp), ← ofMembers_propertiesOf]
  rfl

lemma SchemaOf.required (h : SchemaOf d members (.object entries)) :
    members.lookup "required" = if requiredNames entries = [] then none
      else some (.array ((requiredNames entries).map .string)) := by
  rw [h.same _ (by simp), membersOf, objectMembers]
  by_cases hnames : requiredNames entries = []
  · simp [hnames]
  · simp [hnames, List.lookup_cons]

lemma names_membersOf (shape : Shape) :
    ∀ m ∈ membersOf shape, m.1 ∈ ["type", "properties", "required", "items"] := by
  cases shape with
  | object entries =>
    unfold membersOf objectMembers
    split <;> simp
  | array item => simp [membersOf]
  | single type => simp [membersOf]

lemma SchemaOf.no_items (h : SchemaOf d members (.object entries)) :
    members.lookup "items" = none := by
  rw [h.same _ (by simp), membersOf, objectMembers]
  split <;> rfl

lemma SchemaOf.array (h : SchemaOf d members (.array item)) :
    members.lookup "properties" = none ∧ members.lookup "required" = none ∧
      members.lookup "items" = some (.object (membersOf item)) :=
  ⟨h.same "properties" (by simp), h.same "required" (by simp), h.same "items" (by simp)⟩

lemma SchemaOf.single (h : SchemaOf d members (.single type)) :
    members.lookup "properties" = none ∧ members.lookup "required" = none ∧
      members.lookup "items" = none :=
  ⟨h.same "properties" (by simp), h.same "required" (by simp), h.same "items" (by simp)⟩

/-- Keywords that the schema of a shape does not have. -/
lemma lookup_membersOf_eq_none {shape : Shape} {key : String}
    (h : key ∉ ["type", "properties", "required", "items"]) :
    (membersOf shape).lookup key = none := by
  rw [List.lookup_eq_none_iff]
  intro m hm
  rw [bne_iff_ne]
  rintro rfl
  exact h (names_membersOf shape m hm)

lemma lookup_type_membersOf (shape : Shape) :
    ∃ name ∈ legalTypes, (membersOf shape).lookup "type" = some (.string name) := by
  cases shape with
  | object entries => exact ⟨"object", by decide, rfl⟩
  | array item => exact ⟨"array", by decide, rfl⟩
  | single type =>
    refine ⟨(primitiveOf type).name, ?_, rfl⟩
    cases primitiveOf type <;> decide

/-- Texts may stand in front of the members of a shape. -/
lemma schemaOf_append (front : List (String × Value)) {shape : Shape}
    (hfront : ∀ m ∈ front, m.1 ∈ ["$schema", "$ref"] ∧ ∃ s, m.2 = .string s) :
    SchemaOf d (front ++ membersOf shape) shape := by
  have hsame : ∀ key ∉ ["$schema", "$ref"],
      (front ++ membersOf shape).lookup key = (membersOf shape).lookup key := by
    intro key hkey
    cases hl : front.lookup key with
    | none => rw [List.lookup_append, hl, Option.none_or]
    | some v => exact absurd (hfront _ (Json.mem_of_lookup hl)).1 hkey
  refine ⟨⟨?_, ?_, ?_⟩, fun key hkey => hsame key ?_⟩
  · intro m hm
    obtain hm | hm := List.mem_append.mp hm
    · exact List.mem_append_left _ ((hfront m hm).1)
    · have := names_membersOf shape m hm
      simp only [Draft.written, List.mem_cons, List.not_mem_nil, or_false] at this ⊢
      tauto
  · intro key hkey v hv
    obtain hm | hm := List.mem_append.mp (Json.mem_of_lookup hv)
    · exact (hfront _ hm).2
    · have := names_membersOf shape _ hm
      simp only [List.mem_cons, List.not_mem_nil, or_false] at this hkey
      grind
  · intro v hv
    obtain ⟨name, hname, hl⟩ := lookup_type_membersOf shape
    rw [hsame "type" (by decide), hl] at hv
    exact ⟨name, hname, (Option.some.inj hv).symm⟩
  · simp only [List.mem_cons, List.not_mem_nil, or_false] at hkey
    obtain rfl | rfl | rfl | rfl | rfl | rfl := hkey <;> decide

lemma schemaOf_membersOf (shape : Shape) : SchemaOf d (membersOf shape) shape :=
  schemaOf_append [] (by simp)

lemma of_absent {P : Value → Prop} {key : String} (h : members.lookup key = none) :
    ∀ v, members.lookup key = some v → P v :=
  fun _ hv => nomatch h.symm.trans hv

/-! ## What is in a schema, by its shape -/

lemma SchemaOf.no_definitions {shape : Shape} (h : SchemaOf d members shape) {key : String}
    (hkey : key ∈ ["definitions", "$defs"]) : members.lookup key = none := by
  simp only [List.mem_cons, List.not_mem_nil, or_false] at hkey
  obtain rfl | rfl := hkey
  · rw [h.same _ (by simp)]
    exact lookup_membersOf_eq_none (by decide)
  · rw [h.same _ (by simp)]
    exact lookup_membersOf_eq_none (by decide)

/-- A schema of a shape is one as soon as its properties, required names and items are right. -/
lemma SchemaOf.isSchema {D : List String → Prop} {shape : Shape} (h : SchemaOf d members shape)
    (properties : ∀ v, members.lookup "properties" = some v →
      ∃ known, v = .object known ∧ ∀ part ∈ known, IsSchema D part.2)
    (required : ∀ v, members.lookup "required" = some v → ∃ names, v = .array (names.map .string) ∧
      names ≠ [] ∧ D names ∧ ∃ known, members.lookup "properties" = some (.object known) ∧
        ∀ name ∈ names, name ∈ known.map Prod.fst)
    (items : ∀ v, members.lookup "items" = some v → IsSchema D v) :
    IsSchema D (.object members) := by
  have hkey : ∀ key ∈ mapKeywords, ∀ v, members.lookup key = some v → key = "properties" := by
    intro key hkey v hv
    obtain rfl | hkey := List.mem_cons.mp hkey
    · rfl
    · rw [h.no_definitions hkey] at hv
      cases hv
  refine .keywords h.written.type ?_ ?_ items required
  · intro key hmap v hv
    obtain rfl := hkey key hmap v hv
    obtain ⟨known, rfl, -⟩ := properties v hv
    exact ⟨known, rfl⟩
  · intro key hmap known part hv hpart
    obtain rfl := hkey key hmap _ hv
    obtain ⟨known', hknown, hparts⟩ := properties _ hv
    cases hknown
    exact hparts part hpart

lemma isSchema_object {D : List String → Prop} (h : SchemaOf d members (.object entries)) :
    IsSchema D (.object members) ↔ (requiredNames entries ≠ [] → D (requiredNames entries)) ∧
      ∀ e ∈ counted entries, IsSchema D (.object (membersOf e.2)) := by
  constructor
  · intro hs
    cases hs with
    | keywords _ _ parts _ required =>
      constructor
      · intro hsome
        obtain ⟨names, hnames, -, hd, -⟩ := required _ (h.required.trans (if_neg hsome))
        have hinjective : Function.Injective Value.string := fun _ _ => Value.string.inj
        rwa [hinjective.list_map (Value.array.inj hnames)]
      · intro e he
        exact parts "properties" (by simp [mapKeywords]) _ _ h.properties (List.mem_map_of_mem he)
  · rintro ⟨hrequired, hparts⟩
    apply h.isSchema
    · intro v hv
      rw [h.properties] at hv
      cases hv
      refine ⟨_, rfl, fun part hpart => ?_⟩
      obtain ⟨e, he, rfl⟩ := List.mem_map.mp hpart
      exact hparts e he
    · intro v hv
      rw [h.required, Option.ite_none_left_eq_some] at hv
      obtain ⟨hsome, hv⟩ := hv
      cases hv
      refine ⟨_, rfl, hsome, hrequired hsome, _, h.properties, ?_⟩
      rw [List.map_map]
      exact requiredNames_subset entries
    · exact of_absent h.no_items

lemma isSchema_array {D : List String → Prop} (h : SchemaOf d members (.array item)) :
    IsSchema D (.object members) ↔ IsSchema D (.object (membersOf item)) := by
  obtain ⟨hproperties, hrequired, hitems⟩ := h.array
  constructor
  · intro hs
    cases hs with
    | keywords _ _ _ items _ => exact items _ hitems
  · intro hitem
    refine h.isSchema (of_absent hproperties) (of_absent hrequired) ?_
    rw [hitems]
    rintro _ ⟨⟩
    exact hitem

lemma isSchema_single {D : List String → Prop} (h : SchemaOf d members (.single type)) :
    IsSchema D (.object members) := by
  obtain ⟨hproperties, hrequired, hitems⟩ := h.single
  exact h.isSchema (of_absent hproperties) (of_absent hrequired) (of_absent hitems)

/-- The schema of a shape is one, but for required names that are not as they have to be. -/
theorem isSchema_iff {D : List String → Prop} {shape : Shape} (h : SchemaOf d members shape) :
    IsSchema D (.object members) ↔ ¬Breaks D shape := by
  induction shape using Shape.induction generalizing members with
  | object entries ih =>
    rw [isSchema_object h]
    constructor
    · rintro ⟨hrequired, hparts⟩ hbreaks
      cases hbreaks with
      | here hsome hbad => exact hbad (hrequired hsome)
      | entry he hbreaks =>
        obtain ⟨entry, hentry, rfl⟩ := mem_of_mem_counted he
        exact (ih entry hentry (schemaOf_membersOf _)).mp (hparts _ he) hbreaks
    · intro hbreaks
      refine ⟨fun hsome => not_not.mp fun hbad => hbreaks (.here hsome hbad), fun e he => ?_⟩
      obtain ⟨entry, hentry, rfl⟩ := mem_of_mem_counted he
      exact (ih entry hentry (schemaOf_membersOf _)).mpr fun hpart => hbreaks (.entry he hpart)
  | array item ih =>
    rw [isSchema_array h, ih (schemaOf_membersOf item), not_iff_not]
    constructor
    · exact .item
    · intro hbreaks
      cases hbreaks with
      | item hbreaks => exact hbreaks
  | single type =>
    refine iff_of_true (isSchema_single h) fun hbreaks => ?_
    cases hbreaks

/-! ## What is found in a schema -/

/-- What a metaschema finds in a schema of a shape comes from the three members with parts. -/
lemma SchemaOf.checkAll_iff {again : Value → List Finding} {shape : Shape}
    (h : SchemaOf d members shape) : checkAll again d.rules (.object members) = [] ↔
      (∀ v, members.lookup "properties" = some v → checkAll again schemaMap v = []) ∧
      (∀ v, members.lookup "required" = some v → checkAll again d.requiredRules v = []) ∧
      ∀ v, members.lookup "items" = some v → checkAll again d.itemsRules v = [] := by
  have hkey : members.lookup d.definitionsKey = none := by
    apply h.no_definitions
    cases d <;> decide
  rw [checkAll_written h.written]
  simp [Draft.innerRules, hkey]

lemma checkAll_requiredRules {again : Value → List Finding} {names : List String} (h : names ≠ []) :
    checkAll again d.requiredRules (.array (names.map .string)) = [] ↔ names.Nodup := by
  cases d with
  | draft04 => exact checkAll_someTexts h
  | _ => exact checkAll_textArray

lemma checkAll_itemsRules {again : Value → List Finding} {parts : List (String × Value)} :
    checkAll again d.itemsRules (.object parts) = [] ↔ again (.object parts) = [] := by
  cases d with
  | draft2020 => exact checkAll_schema
  | _ => exact checkAll_schemaOrArray

lemma checkAll_object {again : Value → List Finding} (h : SchemaOf d members (.object entries)) :
    checkAll again d.rules (.object members) = [] ↔
      (requiredNames entries ≠ [] → (requiredNames entries).Nodup) ∧
        ∀ e ∈ counted entries, again (.object (membersOf e.2)) = [] := by
  have hparts : checkAll again schemaMap (.object ((counted entries).map fun e =>
      (e.1, Value.object (membersOf e.2)))) = [] ↔
        ∀ e ∈ counted entries, again (.object (membersOf e.2)) = [] := by
    rw [checkAll_schemaMap, List.forall_mem_map]
  rw [h.checkAll_iff, h.properties, h.required, h.no_items]
  by_cases hsome : requiredNames entries = []
  · simp [hsome, hparts]
  · simp [hsome, hparts, checkAll_requiredRules, and_comm]

lemma checkAll_array {again : Value → List Finding} (h : SchemaOf d members (.array item)) :
    checkAll again d.rules (.object members) = [] ↔ again (.object (membersOf item)) = [] := by
  obtain ⟨hproperties, hrequired, hitems⟩ := h.array
  rw [h.checkAll_iff, hproperties, hrequired, hitems]
  simp [checkAll_itemsRules]

lemma checkAll_single {again : Value → List Finding} (h : SchemaOf d members (.single type)) :
    checkAll again d.rules (.object members) = [] := by
  obtain ⟨hproperties, hrequired, hitems⟩ := h.single
  rw [h.checkAll_iff, hproperties, hrequired, hitems]
  simp

end

section
variable {d : Draft} {members : List (String × Value)}

lemma depth_lt_of_mem {m : String × Value} (h : m ∈ members) :
    m.2.depth < (Value.object members).depth := by
  have hle : m.2.depth ≤ Value.depthOfMembers members := by
    induction members with
    | nil => cases h
    | cons other rest ih =>
      obtain rfl | h := List.mem_cons.mp h
      · exact Nat.le_max_left _ _
      · exact Nat.le_trans (ih h) (Nat.le_max_right _ _)
  exact Nat.lt_succ_of_le hle

/-- With enough fuel nothing is found in the schema of a shape just if it is one. -/
theorem findingsWithin_eq_nil {shape : Shape} (h : SchemaOf d members shape) {fuel : Nat}
    (hfuel : (Value.object members).depth < fuel) :
    findingsWithin d.rules fuel (.object members) = [] ↔ IsSchema List.Nodup (.object members) := by
  induction shape using Shape.induction generalizing members fuel with
  | object entries ih =>
    obtain ⟨fuel, rfl⟩ := Nat.exists_eq_add_one_of_ne_zero (Nat.ne_zero_of_lt hfuel)
    rw [findingsWithin, checkAll_object h, isSchema_object h]
    refine and_congr_right fun _ => forall₂_congr fun e he => ?_
    -- a property lies two levels inside: in the map, which is in the object
    have hmap := depth_lt_of_mem (Json.mem_of_lookup h.properties)
    have hpart := depth_lt_of_mem
      (List.mem_map_of_mem (f := fun e => (e.1, Value.object (membersOf e.2))) he)
    obtain ⟨entry, hentry, rfl⟩ := mem_of_mem_counted he
    exact ih entry hentry (schemaOf_membersOf _)
      (Nat.lt_of_lt_of_le (Nat.lt_trans hpart hmap) (Nat.le_of_lt_succ hfuel))
  | array item ih =>
    obtain ⟨fuel, rfl⟩ := Nat.exists_eq_add_one_of_ne_zero (Nat.ne_zero_of_lt hfuel)
    rw [findingsWithin, checkAll_array h, isSchema_array h]
    have hitem := depth_lt_of_mem (Json.mem_of_lookup h.array.2.2)
    exact ih (schemaOf_membersOf item) (Nat.lt_of_lt_of_le hitem (Nat.le_of_lt_succ hfuel))
  | single type =>
    obtain ⟨fuel, rfl⟩ := Nat.exists_eq_add_one_of_ne_zero (Nat.ne_zero_of_lt hfuel)
    exact iff_of_true (checkAll_single h) (isSchema_single h)

/-! ## Whole schemas -/

/-- What is found with the fuel that a value is given. -/
lemma findings_eq_nil {shape : Shape} (h : SchemaOf d members shape) :
    findings d.rules (.object members) = [] ↔ IsSchema List.Nodup (.object members) :=
  findingsWithin_eq_nil h (Nat.lt_succ_self _)

/-- A schema names its draft in front, and is checked against that. -/
lemma draftFor_head (d : Draft) (rest : List (String × Value)) :
    draftFor (.object (("$schema", .string d.uri) :: rest)) = .ok d := by
  have hmark : ((marks.find? fun m => hasPart m.1 (.string d.uri)).map (·.2)).getD .draft07 =
      d := by
    cases d <;> decide
  exact congrArg Except.ok hmark

lemma head_of_schemaOf (d : Draft) (profile : Option ObjectProfile) :
    ∃ rest, schemaOf d profile = .object (("$schema", .string d.uri) :: rest) := by
  cases profile with
  | none => exact ⟨_, rfl⟩
  | some p =>
    obtain ⟨name, shape⟩ := p
    cases name <;> exact ⟨_, rfl⟩

/-- The members of a schema with no more than a definition, which it refers to. -/
def definedMembers (d : Draft) (name : String) (shape : Shape) : List (String × Value) :=
  [("$schema", .string d.uri), ("$ref", .string (referenceTo d name)),
    (d.definitionsKey, .object [(name, .object (membersOf shape))])]

lemma lookup_definitionsKey (name : String) (shape : Shape) :
    (definedMembers d name shape).lookup d.definitionsKey =
      some (.object [(name, .object (membersOf shape))]) := by
  cases d <;> rfl

lemma lookup_definedMembers_eq_none {name key : String} {shape : Shape}
    (hkey : key ∈ ["type", "properties", "required", "items"]) :
    (definedMembers d name shape).lookup key = none := by
  simp only [List.mem_cons, List.not_mem_nil, or_false] at hkey
  obtain rfl | rfl | rfl | rfl := hkey <;> cases d <;> rfl

lemma eq_of_lookup_definedMembers {name key : String} {shape : Shape} {v : Value}
    (hkey : key ∈ mapKeywords) (h : (definedMembers d name shape).lookup key = some v) :
    v = .object [(name, .object (membersOf shape))] := by
  have hm := Json.mem_of_lookup h
  simp only [definedMembers, List.mem_cons, List.not_mem_nil, or_false, Prod.mk.injEq] at hm
  obtain ⟨rfl, -⟩ | ⟨rfl, -⟩ | ⟨-, rfl⟩ := hm
  · exact absurd hkey (by decide)
  · exact absurd hkey (by decide)
  · rfl

lemma written_definedMembers (name : String) (shape : Shape) :
    Written d (definedMembers d name shape) := by
  refine ⟨?_, ?_, ?_⟩
  · simp [definedMembers, Draft.written]
  · intro key hkey v hv
    have hm := Json.mem_of_lookup hv
    simp only [definedMembers, List.mem_cons, List.not_mem_nil, or_false, Prod.mk.injEq] at hm
    obtain ⟨-, rfl⟩ | ⟨-, rfl⟩ | ⟨rfl, -⟩ := hm
    · exact ⟨_, rfl⟩
    · exact ⟨_, rfl⟩
    · cases d <;> simp [Draft.definitionsKey] at hkey
  · exact of_absent (lookup_definedMembers_eq_none (by simp))

lemma isSchema_definedMembers {D : List String → Prop} {name : String} {shape : Shape} :
    IsSchema D (.object (definedMembers d name shape)) ↔
    IsSchema D (.object (membersOf shape)) := by
  constructor
  · intro hs
    have hkey : d.definitionsKey ∈ mapKeywords := by cases d <;> decide
    cases hs with
    | keywords _ _ parts _ _ =>
      exact parts _ hkey _ _ (lookup_definitionsKey name shape) List.mem_cons_self
  · intro hs
    refine .keywords (written_definedMembers name shape).type ?_ ?_
      (of_absent (lookup_definedMembers_eq_none (by simp)))
      (of_absent (lookup_definedMembers_eq_none (by simp)))
    · exact fun key hkey v hv => ⟨_, eq_of_lookup_definedMembers hkey hv⟩
    · intro key hkey known part hv hpart
      cases eq_of_lookup_definedMembers hkey hv
      rwa [List.mem_singleton.mp hpart]

lemma findings_definedMembers {name : String} {shape : Shape} :
    findings d.rules (.object (definedMembers d name shape)) = [] ↔
      IsSchema List.Nodup (.object (membersOf shape)) := by
  have hmap := depth_lt_of_mem (Json.mem_of_lookup (lookup_definitionsKey (d := d) name shape))
  have hpart := depth_lt_of_mem (List.mem_singleton_self (name, Value.object (membersOf shape)))
  rw [findings, findingsWithin, checkAll_written (written_definedMembers name shape),
    ← findingsWithin_eq_nil (schemaOf_membersOf (d := d) shape) (Nat.lt_trans hpart hmap)]
  simp [Draft.innerRules, lookup_definitionsKey, lookup_definedMembers_eq_none, checkAll_schemaMap]

/-- The draft alone, which describes nothing. -/
lemma lookup_head {uri : Value} {key : String} (hkey : key ≠ "$schema") :
    [("$schema", uri)].lookup key = none := by
  rw [List.lookup_cons, beq_false_of_ne hkey]
  rfl

lemma written_head : Written d [("$schema", .string d.uri)] := by
  refine ⟨by simp [Draft.written], fun key _ v hv => ?_, of_absent (lookup_head (by decide))⟩
  cases List.mem_singleton.mp (Json.mem_of_lookup hv)
  exact ⟨_, rfl⟩

lemma isSchema_head {D : List String → Prop} :
    IsSchema D (.object [("$schema", .string d.uri)]) := by
  have hne : ∀ key ∈ mapKeywords, key ≠ "$schema" := by decide
  exact .keywords written_head.type (fun key hkey => of_absent (lookup_head (hne key hkey)))
    (fun key hkey known part hv => nomatch (lookup_head (hne key hkey)).symm.trans hv)
    (of_absent (lookup_head (by decide))) (of_absent (lookup_head (by decide)))

lemma findings_head : findings d.rules (.object [("$schema", .string d.uri)]) = [] := by
  rw [findings, findingsWithin, checkAll_written written_head]
  intro e he
  have hne : e.1 ≠ "$schema" := by
    revert e
    cases d <;> simp [Draft.innerRules, Draft.definitionsKey]
  exact of_absent (lookup_head hne)

lemma schemaOf_unnamed (shape : Shape) :
    SchemaOf d (("$schema", .string d.uri) :: membersOf shape) shape :=
  schemaOf_append [("$schema", .string d.uri)] (by simp)

/-- A schema is one, but for required names that are not as they have to be. -/
theorem isSchema_schemaOf {D : List String → Prop} (d : Draft) (profile : Option ObjectProfile) :
    IsSchema D (schemaOf d profile) ↔ ∀ p ∈ profile, ¬Breaks D p.shape := by
  cases profile with
  | none => exact iff_of_true isSchema_head (by simp)
  | some p =>
    obtain ⟨name, shape⟩ := p
    simp only [Option.mem_some_iff, forall_eq']
    cases name with
    | none => exact isSchema_iff (schemaOf_unnamed shape)
    | some name =>
      exact isSchema_definedMembers.trans (isSchema_iff (schemaOf_membersOf (d := d) shape))

theorem findings_schemaOf (d : Draft) (profile : Option ObjectProfile) :
    findings d.rules (schemaOf d profile) = [] ↔ IsSchema List.Nodup (schemaOf d profile) := by
  cases profile with
  | none => exact iff_of_true findings_head isSchema_head
  | some p =>
    obtain ⟨name, shape⟩ := p
    cases name with
    | none => exact findings_eq_nil (schemaOf_unnamed shape)
    | some name => exact findings_definedMembers.trans isSchema_definedMembers.symm

/-! ## Schemas as they are written -/

lemma legible_texts (texts : List String) : Json.Legible (.array (texts.map .string)) := by
  refine .array fun v hv => ?_
  obtain ⟨s, -, rfl⟩ := List.mem_map.mp hv
  exact .string s

lemma legible_objectMembers {properties : List (String × Value)} {required : List String}
    (h : ∀ m ∈ Json.ofMembers properties, Json.Legible m.2) :
    Json.Legible (.object (objectMembers properties required)) := by
  have hproperties : Json.Legible (.object (Json.ofMembers properties)) :=
    .object (Json.nodup_names_ofMembers properties) h
  unfold objectMembers
  split
  · refine .object (by simp) ?_
    simp [Json.Legible.string, hproperties]
  · refine .object (by simp) ?_
    simp [Json.Legible.string, hproperties, legible_texts]

lemma legible_membersOf (shape : Shape) : Json.Legible (.object (membersOf shape)) := by
  induction shape using Shape.induction with
  | object entries ih =>
    apply legible_objectMembers
    rw [ofMembers_propertiesOf]
    intro m hm
    obtain ⟨e, he, rfl⟩ := List.mem_map.mp hm
    obtain ⟨entry, hentry, rfl⟩ := mem_of_mem_counted he
    exact ih entry hentry
  | array item ih =>
    refine .object (by simp [membersOf]) ?_
    simp [membersOf, Json.Legible.string, ih]
  | single type =>
    refine .object (by simp [membersOf]) ?_
    simp [membersOf, Json.Legible.string]

lemma legible_schemaOf (d : Draft) (profile : Option ObjectProfile) :
    Json.Legible (schemaOf d profile) := by
  cases profile with
  | none =>
    refine .object (by simp) ?_
    simp [Json.Legible.string]
  | some p =>
    obtain ⟨name, shape⟩ := p
    have hshape := legible_membersOf shape
    cases name with
    | none =>
      cases hshape with
      | object hnames h =>
        refine .object ?_ (List.forall_mem_cons.mpr ⟨.string _, h⟩)
        rw [List.map_cons, List.nodup_cons]
        refine ⟨fun hmem => ?_, hnames⟩
        obtain ⟨m, hm, heq⟩ := List.mem_map.mp hmem
        have hname := names_membersOf shape m hm
        rw [heq] at hname
        simp at hname
    | some name =>
      refine .object (by cases d <;> simp [Draft.definitionsKey]) ?_
      have hdefinition : Json.Legible (.object [(name, .object (membersOf shape))]) :=
        .object (by simp) (by simp [hshape])
      simp [Json.Legible.string, hdefinition]

/-- What is found in a value that was written is what is found in the value. -/
lemma checkOctets_pretty {v : Value} (h : Json.Legible v) :
    checkOctets v.pretty.toUTF8.toList = (check v).mapError .schema := by
  have htext : v.pretty.toList = v.layOut 0 := String.toList_ofList
  have hlines := Text.plainLines_eq_self (Json.return_not_mem_layOut h 0)
  unfold checkOctets
  rw [Text.ofUtf8_toUTF8, htext]
  simp only [Except.mapError, bind, Except.bind, hlines, Json.ofChars_layOut h]

/-- A schema that was written is read again, and nothing is found in it just if it is right. -/
theorem checkOctets_schemaOf (d : Draft) (profile : Option ObjectProfile) :
    ∃ found, checkOctets (schemaOf d profile).pretty.toUTF8.toList = .ok found ∧
      (found = [] ↔ IsSchema List.Nodup (schemaOf d profile)) := by
  obtain ⟨rest, hrest⟩ := head_of_schemaOf d profile
  have hcheck : check (schemaOf d profile) =
      .ok ((findings d.rules (schemaOf d profile)).mergeSort fun a b => pathLe a.path b.path) := by
    rw [hrest, check, draftFor_head]
    rfl
  refine ⟨_, (checkOctets_pretty (legible_schemaOf d profile)).trans (congrArg _ hcheck), ?_⟩
  rw [← findings_schemaOf, ← List.length_eq_zero_iff, List.length_mergeSort,
    List.length_eq_zero_iff]

/-- In an object of a profile that counts, a required name is repeated. -/
def RepeatsRequired (profile : Xml.Node) : Prop :=
  ∃ object, rootObject? profile = some object ∧ Breaks List.Nodup (objectShape object)

lemma not_breaks_true (shape : Shape) : ¬Breaks (fun _ => True) shape := by
  intro h
  induction h with
  | here _ h => exact h trivial
  | entry _ _ ih => exact ih
  | item _ ih => exact ih

lemma report_valid_iff {found : List Finding} :
    report found = ["✅ Valid JSON Schema."] ↔ found = [] := by
  cases found <;> simp [report]

/-- The schema of a profile of JSON is valid against the metaschema of its draft, whichever that is,
just if no required names are repeated. All else that a schema has to be it is in any case. -/
theorem schema_valid_iff {document profile : Xml.Node}
    (hprofile : document.findFirst? "JSONProfile" = some profile) (d : Draft) :
    ∃ schema found, convert d document = .ok schema ∧ IsSchema (fun _ => True) schema ∧
      (IsSchema List.Nodup schema ↔ ¬RepeatsRequired profile) ∧
      checkOctets schema.pretty.toUTF8.toList = .ok found ∧
      (report found = ["✅ Valid JSON Schema."] ↔ ¬RepeatsRequired profile) := by
  obtain ⟨objectProfile, hobject⟩ : ∃ o, ObjectProfile.ofDocument document = .ok o := by
    rw [ObjectProfile.ofDocument, hprofile]
    exact ⟨_, rfl⟩
  have hconvert : convert d document = .ok (schemaOf d objectProfile) := by
    rw [convert, hobject]
  have hbreaks (D : List String → Prop) : (∀ p ∈ objectProfile, ¬Breaks D p.shape) ↔
      ¬∃ object, rootObject? profile = some object ∧ Breaks D (objectShape object) := by
    rw [ObjectProfile.ofDocument, hprofile] at hobject
    cases hobject
    simp
  have hdistinct : IsSchema List.Nodup (schemaOf d objectProfile) ↔ ¬RepeatsRequired profile :=
    (isSchema_schemaOf d objectProfile).trans (hbreaks _)
  obtain ⟨found, hcheck, hfound⟩ := checkOctets_schemaOf d objectProfile
  refine ⟨_, found, hconvert, ?_, hdistinct, hcheck, ?_⟩
  · rw [isSchema_schemaOf]
    exact fun p _ => not_breaks_true p.shape
  · rw [report_valid_iff, hfound, hdistinct]

/-- A profile of an object that asks for one of its entries twice. -/
def insistentProfile : Xml.Node :=
  let entry : Xml.Node :=
    .element (.plain "JSONObjectEntry") [] [⟨.plain "name", "a"⟩, ⟨.plain "required", "true"⟩] []
  .element (.plain "JSONProfile") [] [] [.element (.plain "JSONObject") [] [] [entry, entry]]

/-- The schema of such a profile has the name twice where it must stand once. -/
theorem insistent_schema_invalid : RepeatsRequired insistentProfile ∧
    ∃ schema found, convert .draft07 insistentProfile = .ok schema ∧ ¬IsSchema List.Nodup schema ∧
      checkOctets schema.pretty.toUTF8.toList = .ok found ∧
      report found ≠ ["✅ Valid JSON Schema."] := by
  have hprofile : insistentProfile.findFirst? "JSONProfile" = some insistentProfile := rfl
  have hrepeats : RepeatsRequired insistentProfile := by
    refine ⟨_, rfl, .here ?_ ?_⟩ <;> decide
  obtain ⟨schema, found, hconvert, -, hdistinct, hcheck, hreport⟩ :=
    schema_valid_iff hprofile .draft07
  exact ⟨hrepeats, schema, found, hconvert, fun h => hdistinct.mp h hrepeats, hcheck,
    fun h => hreport.mp h hrepeats⟩

end
end SchemaLoom.JsonSchema
