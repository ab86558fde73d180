import SchemaLoom.JsonSchema.Convert
import SchemaLoom.Proofs.Json.Pointer

/-! The reference of a schema to its root object. It is put together from the name as it is, so that
it leads to the object just where nothing in the name means something else in a reference. -/
namespace SchemaLoom.JsonSchema
open Json (Value IsPlain)
open Profile (ObjectProfile rootObject? objectShape filled?)
open Xml (Node)

/-- The reference to a definition, with escapes for what means something in it. -/
def escapedReferenceTo (d : Draft) (name : String) : String :=
  referenceTo d (String.ofList (Json.escapeFragment (Json.escape name.toList)))

lemma isPlain_definitionsKey (d : Draft) : IsPlain d.definitionsKey.toList := by cases d <;> decide

section
variable (d : Draft) (name : String) (root : Value)

/-- A schema whose root object is a definition of its own. -/
def definingSchema : Value := .object
  [("$schema", .string d.uri), ("$ref", .string (referenceTo d name)),
    (d.definitionsKey, .object [(name, root)])]

lemma lookup_definitions : [("$schema", Value.string d.uri), ("$ref", .string (referenceTo d name)),
    (d.definitionsKey, .object [(name, root)])].lookup d.definitionsKey =
    some (.object [(name, root)]) := by
  cases d <;> rfl

/-- The one definition is found by its name and by no other token. -/
lemma child_definition (token : List Char) : (Value.object [(name, root)]).child? token =
    if token = name.toList then some root else none := by
  rw [Value.child?, List.lookup_cons]
  by_cases h : token = name.toList
  · subst h
    simp
  · have hne : (String.ofList token == name) = false := by
      rw [beq_eq_false_iff_ne]
      rintro rfl
      exact h String.toList_ofList.symm
    simp [h, hne]

/-- Behind the member of definitions the tokens of a reference lead from the one definition on. -/
lemma resolve_definition (spelling : String) :
    (definingSchema d name root).resolve? (referenceTo d spelling) =
    (Json.fragmentText? spelling.toList).bind fun text =>
    ((text.splitOn '/').mapM Json.unescape?).bind fun tokens =>
      tokens.foldlM (fun v token => v.child? token) (.object [(name, root)]) :=
  Json.resolve_below (isPlain_definitionsKey d) (lookup_definitions d name root) spelling

/-- A plain name is a token of a reference as it is. -/
theorem resolve_of_isPlain (h : IsPlain name.toList) :
    (definingSchema d name root).resolve? (referenceTo d name) = some root := by
  obtain ⟨hpercent, hslash, htilde⟩ := h
  rw [resolve_definition, Json.fragmentText_plain hpercent, Option.bind_some,
    List.splitOn_eq_singleton hslash, List.mapM_cons, Json.unescape_plain htilde]
  simp [child_definition]

/-- Any other name is read as something else, or as nothing. -/
theorem resolve_of_not_isPlain (h : ¬IsPlain name.toList) :
    (definingSchema d name root).resolve? (referenceTo d name) = none := by
  rw [resolve_definition]
  cases htext : Json.fragmentText? name.toList with
  | none => rfl
  | some text =>
    obtain ⟨first, rest, hsplit, -⟩ := Json.exists_splitOn text
    rw [Option.bind_some, hsplit, List.mapM_cons]
    cases htoken : Json.unescape? first with
    | none => rfl
    | some token =>
      have hne : token ≠ name.toList :=
        fun hsame => h (Json.isPlain_of_first htext hsplit htoken hsame)
      cases rest.mapM Json.unescape? with
      | none => rfl
      | some tokens => simp [child_definition, hne]

/-- With escapes every name is a token of a reference. -/
theorem resolve_escaped :
    (definingSchema d name root).resolve? (escapedReferenceTo d name) = some root := by
  rw [escapedReferenceTo, resolve_definition, String.toList_ofList,
    Json.fragmentText_escapeFragment, Option.bind_some,
    List.splitOn_eq_singleton (Json.slash_not_mem_escape _), List.mapM_cons, Json.unescape_escape]
  simp [child_definition]

end

/-- A profile whose root object has a name, of whatever characters, has a schema in every draft that
refers to the schema of this object by a reference to its name. The reference leads there if there
is no percent sign, slash or tilde in the name, and leads nowhere if there is one. With escapes for
these characters it would lead there for every name. -/
theorem reference_resolves_iff_plain {document profile object : Node} {name : String}
    (hprofile : document.findFirst? "JSONProfile" = some profile)
    (hobject : rootObject? profile = some object) (hname : filled? object ["name"] = some name)
    (d : Draft) : ∃ schema, convert d document = .ok schema ∧
      schema.member? "$ref" = some (.string (referenceTo d name)) ∧
      (IsPlain name.toList →
        schema.resolve? (referenceTo d name) = some (.object (membersOf (objectShape object)))) ∧
      (¬IsPlain name.toList → schema.resolve? (referenceTo d name) = none) ∧
      schema.resolve? (escapedReferenceTo d name) =
      some (.object (membersOf (objectShape object))) := by
  have hread : ObjectProfile.ofDocument document = .ok (some ⟨some name, objectShape object⟩) := by
    rw [ObjectProfile.ofDocument, hprofile]
    simp only [hobject, Option.map_some, hname]
  have hschema : convert d document =
      .ok (definingSchema d name (.object (membersOf (objectShape object)))) := by
    rw [convert, hread]
    rfl
  exact ⟨_, hschema, rfl, resolve_of_isPlain d name _, resolve_of_not_isPlain d name _,
    resolve_escaped d name _⟩

def slashedObject : Node := .element (.plain "JSONObject") [] [⟨.plain "name", "a/b"⟩]
  [.element (.plain "JSONObjectEntry") [] [⟨.plain "name", "id"⟩] []]

def slashedDocument : Node := .element (.plain "JSONProfile") [] [] [slashedObject]

/-- The slash in a name is taken for the end of a token: the reference asks for a part of a
definition that is not there. -/
theorem slashed_not_resolved : ∃ schema, convert .draft07 slashedDocument = .ok schema ∧
    schema.member? "$ref" = some (.string "#/definitions/a/b") ∧
    schema.resolve? "#/definitions/a/b" = none ∧
    schema.resolve? "#/definitions/a~1b" =
    some (.object (membersOf (objectShape slashedObject))) := by
  have hprofile : slashedDocument.findFirst? "JSONProfile" = some slashedDocument := rfl
  have hname : filled? slashedObject ["name"] = some "a/b" := by decide +kernel
  obtain ⟨schema, hschema, href, -, hnone, hescaped⟩ :=
    reference_resolves_iff_plain hprofile rfl hname .draft07
  exact ⟨schema, hschema, href, hnone (by decide), hescaped⟩

end SchemaLoom.JsonSchema
