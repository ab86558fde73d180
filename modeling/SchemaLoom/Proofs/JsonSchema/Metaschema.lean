import Mathlib.Tactic.Lemma
import SchemaLoom.JsonSchema.Check
import SchemaLoom.Proofs.Json.Members

/-! What metaschemas ask of the keywords that schemas of a draft are written with. -/
namespace SchemaLoom.JsonSchema
open Json (Value)

section
variable {again : Value → List Finding} {v : Value} {rules : List Rule}

/-! ## Rules, one at a time -/

@[simp] lemma checkAll_nil : checkAll again [] v = [] := rfl

@[simp] lemma checkAll_cons {r : Rule} :
    checkAll again (r :: rules) v = r.check again v ++ checkAll again rules v := rfl

@[simp] lemma checkMembers_nil : checkMembers again [] v = [] := rfl

lemma checkMembers_cons {name : String} {known : List (String × List Rule)} :
    checkMembers again ((name, rules) :: known) v =
      (match v.member? name with
        | some part => under name (checkAll again rules part)
        | none => []) ++ checkMembers again known v := rfl

@[simp] lemma checkAny_nil : checkAny again [] v = false := rfl

lemma checkAny_cons {alternatives : List (List Rule)} : checkAny again (rules :: alternatives) v =
    ((checkAll again rules v).isEmpty || checkAny again alternatives v) := rfl

@[simp] lemma check_kinds {allowed : List Kind} : (Rule.kinds allowed).check again v =
    if allowed.any (·.admits v) then []
    else here (v.literal ++ " is not of type " ++ kindsText allowed) := rfl

@[simp] lemma check_members {known : List (String × List Rule)} :
    (Rule.members known).check again v = checkMembers again known v := rfl

@[simp] lemma check_everyMember {parts : List (String × Value)} :
    (Rule.everyMember rules).check again (.object parts) =
      parts.flatMap fun m => under m.1 (checkAll again rules m.2) := rfl

@[simp] lemma check_everyItem {items : List Value} :
    (Rule.everyItem rules).check again (.array items) =
    items.zipIdx.flatMap fun i => under (Number.natText i.2) (checkAll again rules i.1) := rfl

@[simp] lemma check_leastItems {n : Nat} {items : List Value} :
    (Rule.leastItems n).check again (.array items) = if items.length < n then
      here ((Value.array items).literal ++
      if n == 1 then " should be non-empty" else " is too short")
    else [] := rfl

@[simp] lemma check_distinctItems {items : List Value} :
    Rule.distinctItems.check again (.array items) = if Value.allDistinct items then []
    else here ((Value.array items).literal ++ " has non-unique elements") := rfl

@[simp] lemma check_oneOf {texts : List String} {s : String} :
    (Rule.oneOf texts).check again (.string s) = if texts.contains s then []
    else here ((Value.string s).literal ++ " is not one of " ++ textsLiteral texts) := rfl

@[simp] lemma check_anyOf {alternatives : List (List Rule)} :
    (Rule.anyOf alternatives).check again v = if checkAny again alternatives v then []
    else here (v.literal ++ " is not valid under any of the given schemas") := rfl

@[simp] lemma check_needs {name other : String} : (Rule.needs name other).check again v =
    if (v.member? name).isSome && (v.member? other).isNone then
      here (Text.quoted other ++ " is a dependency of " ++ Text.quoted name)
    else [] := rfl

@[simp] lemma check_whole : Rule.whole.check again v = again v := rfl

@[simp] lemma under_eq_nil {step : String} {found : List Finding} :
    under step found = [] ↔ found = [] := by
  simp [under]

@[simp] lemma here_ne_nil (message : String) : here message ≠ [] := by simp [here]

theorem checkAll_eq_nil : checkAll again rules v = [] ↔ ∀ r ∈ rules, r.check again v = [] := by
  induction rules with
  | nil => simp
  | cons r rest ih => simp [ih]

theorem checkMembers_eq_nil {known : List (String × List Rule)} :
    checkMembers again known v = [] ↔
      ∀ e ∈ known, ∀ part, v.member? e.1 = some part → checkAll again e.2 part = [] := by
  induction known with
  | nil => simp
  | cons e rest ih =>
    obtain ⟨name, rules⟩ := e
    rw [checkMembers_cons, List.append_eq_nil_iff, ih, List.forall_mem_cons]
    cases v.member? name <;> simp

theorem checkAny_iff {alternatives : List (List Rule)} :
    checkAny again alternatives v = true ↔ ∃ rules ∈ alternatives, checkAll again rules v = [] := by
  induction alternatives with
  | nil => simp
  | cons rules rest ih => simp [checkAny_cons, ih]

/-! ## Rules of single keywords -/

lemma checkAll_text (s : String) : checkAll again text (.string s) = [] := by
  simp [text, Kind.admits]

/-- The names of the kinds of values. -/
def legalTypes : List String :=
  ["array", "boolean", "integer", "null", "number", "object", "string"]

lemma checkAll_types {name : String} (h : name ∈ legalTypes) :
    checkAll again types (.string name) = [] := by
  have hname : checkAll again typeNames (.string name) = [] := by
    rw [checkAll_eq_nil]
    intro r hr
    obtain rfl := List.mem_singleton.mp hr
    exact if_pos (List.contains_iff_mem.mpr h)
  have hany : checkAny again [typeNames, [.kinds [.array], .everyItem typeNames, .leastItems 1,
      .distinctItems]] (.string name) = true :=
    checkAny_iff.mpr ⟨typeNames, List.mem_cons_self, hname⟩
  simp [types, hany]

lemma checkAll_schemaMap {known : List (String × Value)} :
    checkAll again schemaMap (.object known) = [] ↔ ∀ part ∈ known, again part.2 = [] := by
  simp [schemaMap, schema, Kind.admits]

lemma checkAll_schema : checkAll again schema v = [] ↔ again v = [] := by
  simp [schema]

/-- An object is no array of schemas. -/
lemma checkAll_schemaOrArray {members : List (String × Value)} :
    checkAll again schemaOrArray (.object members) = [] ↔ again (.object members) = [] := by
  have hany : checkAny again [schema, schemaArray] (.object members) = true ↔
      again (.object members) = [] := by
    rw [checkAny_iff]
    simp [checkAll_schema, schemaArray, Kind.admits]
  simp [schemaOrArray, hany]

lemma same_comp_string (name : String) :
    Value.same (.string name) ∘ Value.string = fun other => name == other := by
  funext other
  simp [Value.same]

lemma allDistinct_texts {names : List String} :
    Value.allDistinct (names.map .string) = true ↔ names.Nodup := by
  unfold Value.allDistinct
  induction names with
  | nil => simp [allDistinctBy]
  | cons name rest ih =>
    rw [List.map_cons, allDistinctBy, Bool.and_eq_true, ih, List.nodup_cons, List.any_map,
      same_comp_string, Bool.not_eq_true', List.any_eq_false]
    simp only [beq_iff_eq]
    exact and_congr_left' ⟨fun h hname => h name hname rfl, fun h other ho he => h (he ▸ ho)⟩

lemma everyItem_text (names : List String) :
    (Rule.everyItem text).check again (.array (names.map .string)) = [] := by
  simp only [check_everyItem, List.flatMap_eq_nil_iff, under_eq_nil]
  intro item hitem
  obtain ⟨name, -, hname⟩ := List.mem_map.mp (List.fst_mem_of_mem_zipIdx hitem)
  rw [← hname]
  exact checkAll_text name

lemma checkAll_textArray {names : List String} :
    checkAll again textArray (.array (names.map .string)) = [] ↔ names.Nodup := by
  rw [← allDistinct_texts, checkAll_eq_nil]
  simp only [textArray, List.forall_mem_cons, everyItem_text, true_and]
  simp [Kind.admits]

lemma checkAll_someTexts {names : List String} (h : names ≠ []) :
    checkAll again someTexts (.array (names.map .string)) = [] ↔ names.Nodup := by
  rw [← allDistinct_texts, checkAll_eq_nil]
  simp only [someTexts, List.forall_mem_cons, everyItem_text, true_and]
  simp [Kind.admits, h]

end
/-! ## Drafts -/

/-- The members that a rule knows by name. -/
def Rule.known : Rule → List (String × List Rule)
  | .members known => known
  | _ => []

namespace Draft

/-- All that the metaschema of a draft says of members by name. -/
def keywords (d : Draft) : List (String × List Rule) := d.rules.flatMap Rule.known

/-- The members that schemas of a draft are written with. -/
def written (d : Draft) : List String :=
  ["$schema", "$ref", d.definitionsKey, "type", "properties", "required", "items"]

/-- What is asked of required names. Only the fourth draft asks for one at least. -/
def requiredRules : Draft → List Rule
  | draft04 => someTexts
  | _ => textArray

/-- What is asked of the items of an array. As of 2020 they have one schema. -/
def itemsRules : Draft → List Rule
  | draft2020 => schema
  | _ => schemaOrArray

/-- What is asked of the members that hold other schemas, or names of members. -/
def innerRules (d : Draft) : List (String × List Rule) :=
  [(d.definitionsKey, schemaMap), ("properties", schemaMap), ("required", d.requiredRules),
    ("items", d.itemsRules)]

/-- What is asked of the members that schemas are written with. -/
def writtenRules (d : Draft) : List (String × List Rule) :=
  ("$schema", text) :: ("$ref", text) :: ("type", types) :: d.innerRules

/-- What the metaschema says of these members, in its own order. The fourth draft says nothing of
references. -/
lemma filter_keywords (d : Draft) : (d.keywords.filter fun e => d.written.contains e.1) =
    match d with
    | draft04 => [("$schema", text), ("items", schemaOrArray), ("required", someTexts),
        ("definitions", schemaMap), ("properties", schemaMap), ("type", types)]
    | draft06 => [("$schema", text), ("$ref", text), ("items", schemaOrArray),
        ("required", textArray), ("definitions", schemaMap), ("properties", schemaMap),
        ("type", types)]
    | draft07 => [("$schema", text), ("$ref", text), ("items", schemaOrArray),
        ("required", textArray), ("definitions", schemaMap), ("properties", schemaMap),
        ("type", types)]
    | draft2019 => [("$schema", text), ("$ref", text), ("$defs", schemaMap),
        ("properties", schemaMap), ("items", schemaOrArray), ("required", textArray),
        ("type", types)]
    | draft2020 => [("$schema", text), ("$ref", text), ("$defs", schemaMap), ("items", schema),
        ("properties", schemaMap), ("required", textArray), ("type", types)] := by
  cases d <;> rfl

lemma mem_writtenRules {d : Draft} {e : String × List Rule} (h : e ∈ d.keywords)
    (he : e.1 ∈ d.written) : e ∈ d.writtenRules := by
  have hsubset : (d.keywords.filter fun e => d.written.contains e.1) ⊆ d.writtenRules := by
    rw [filter_keywords]
    cases d <;> simp [writtenRules, innerRules, requiredRules, itemsRules, definitionsKey]
  exact hsubset (List.mem_filter.mpr ⟨h, List.contains_iff_mem.mpr he⟩)

lemma innerRules_subset (d : Draft) : d.innerRules ⊆ d.keywords := by
  have hfilter : d.innerRules ⊆ d.keywords.filter fun e => d.written.contains e.1 := by
    rw [filter_keywords]
    cases d <;> simp [innerRules, requiredRules, itemsRules, definitionsKey]
  exact fun e he => List.mem_of_mem_filter (hfilter he)

/-- Beside the rules of members there are those of the kind of the whole, and some that one member
asks for another by. -/
lemma rule_cases {d : Draft} {r : Rule} (h : r ∈ d.rules) :
    (∃ known, r = .members known) ∨ r = .kinds [.object] ∨ r = isSchema ∨
      ∃ name other, name ∉ d.written ∧ r = .needs name other := by
  cases d with
  | draft04 =>
    simp only [rules, draft04Rules, List.mem_cons, List.not_mem_nil, or_false] at h
    obtain rfl | rfl | rfl | rfl := h
    · exact .inr (.inl rfl)
    · exact .inl ⟨_, rfl⟩
    · exact .inr (.inr (.inr ⟨_, _, by decide, rfl⟩))
    · exact .inr (.inr (.inr ⟨_, _, by decide, rfl⟩))
  | _ =>
    simp only [rules, draft06Rules, draft07Rules, draft2019Rules, draft2020Rules, vocabularies,
      List.mem_append, List.mem_flatMap, List.mem_cons, List.not_mem_nil, or_false] at h
    grind

end Draft

/-- Members of a schema of a draft: no others than it is written with, among them texts and the name
of a type. -/
structure Written (d : Draft) (members : List (String × Value)) : Prop where
  names : ∀ m ∈ members, m.1 ∈ d.written
  texts : ∀ key ∈ ["$schema", "$ref"], ∀ v, members.lookup key = some v → ∃ s, v = .string s
  type : ∀ v, members.lookup "type" = some v → ∃ name ∈ legalTypes, v = .string name

section
variable {d : Draft} {again : Value → List Finding} {members : List (String × Value)}

lemma Written.lookup_eq_none (h : Written d members) {name : String} (hname : name ∉ d.written) :
    members.lookup name = none := by
  rw [List.lookup_eq_none_iff]
  intro m hm
  rw [bne_iff_ne]
  rintro rfl
  exact hname (h.names m hm)

/-- What the metaschema asks of members that hold no schemas is there as it asks. -/
lemma Written.check_outer (h : Written d members) {e : String × List Rule} (he : e ∈ d.writtenRules)
    {part : Value} (hpart : members.lookup e.1 = some part) :
    e ∈ d.innerRules ∨ checkAll again e.2 part = [] := by
  simp only [Draft.writtenRules, List.mem_cons] at he
  obtain rfl | rfl | rfl | he := he
  · obtain ⟨s, rfl⟩ := h.texts _ List.mem_cons_self _ hpart
    exact .inr (checkAll_text s)
  · obtain ⟨s, rfl⟩ := h.texts _ (by simp) _ hpart
    exact .inr (checkAll_text s)
  · obtain ⟨name, hname, rfl⟩ := h.type _ hpart
    exact .inr (checkAll_types hname)
  · exact .inl he

/-- A metaschema finds nothing in an object where it finds nothing in the members that hold other
schemas or names. -/
theorem checkAll_written (h : Written d members) :
    checkAll again d.rules (.object members) = [] ↔
      ∀ e ∈ d.innerRules, ∀ part, members.lookup e.1 = some part →
      checkAll again e.2 part = [] := by
  rw [checkAll_eq_nil]
  constructor
  · intro hrules e he part hpart
    obtain ⟨r, hr, hknown⟩ := List.mem_flatMap.mp (d.innerRules_subset he)
    obtain ⟨known, rfl⟩ | rfl | rfl | ⟨name, other, -, rfl⟩ := Draft.rule_cases hr
    · exact checkMembers_eq_nil.mp (hrules _ hr) e hknown part hpart
    all_goals cases hknown
  · intro hinner r hr
    obtain ⟨known, rfl⟩ | rfl | rfl | ⟨name, other, hname, rfl⟩ := Draft.rule_cases hr
    · rw [check_members]
      apply checkMembers_eq_nil.mpr
      intro e he part hpart
      have hkeyword : e ∈ d.keywords := List.mem_flatMap.mpr ⟨_, hr, he⟩
      have hwritten := Draft.mem_writtenRules hkeyword (h.names _ (Json.mem_of_lookup hpart))
      exact (h.check_outer hwritten hpart).elim (fun he => hinner e he part hpart) id
    · simp [Kind.admits]
    · simp [isSchema, Kind.admits]
    · simp [Value.member?, h.lookup_eq_none hname]

end
end SchemaLoom.JsonSchema
