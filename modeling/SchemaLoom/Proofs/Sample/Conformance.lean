import SchemaLoom.Proofs.Json.Members
import SchemaLoom.Proofs.JsonSchema.Validity
import SchemaLoom.Proofs.Profile.Shape
import SchemaLoom.Sample.Json

/-! Samples of JSON conform to the schemas that are made of the same profiles, and show all that
these describe. -/
namespace SchemaLoom
open Json (Value)
open Xml (Node)
open JsonSchema (Draft IsValid Shows AllowsType HasType Kind membersOf propertiesOf requiredNames
  propertiesOf_eq)
open Profile (Shape ObjectProfile rootObject?)

namespace Sample

lemma entrySamples_eq (entries : List (String × Bool × Shape)) :
    entrySamples entries = entries.map fun e => (e.1, ofShape e.2.2) := by
  induction entries with
  | nil => rfl
  | cons e rest ih => rw [entrySamples, ih]; rfl

/-- The keywords that say what is valid. -/
def keywords : List String := ["type", "properties", "required", "items"]

/-- Members of a schema say what the members for a shape do. -/
def Describes (members : List (String × Value)) (shape : Shape) : Prop :=
  ∀ key ∈ keywords, members.lookup key = (membersOf shape).lookup key

lemma hasType_of_kind {d : Draft} {k : Kind} {v : Value} (hk : k ∈ d.kinds)
    (h : k.admits v = true) :
    HasType d k.name v := .inr ⟨k, hk, rfl, h⟩

/-- The sample of a data type is of the type that its schema names. The two tables of names agree in
what they leave out. -/
lemma hasType_jsonValue (d : Draft) (type : Option String) :
    HasType d (JsonSchema.primitiveOf type).name (jsonValue type) := by
  have hstring (text : String) : HasType d "string" (.string text) :=
    hasType_of_kind (k := .string) (by cases d <;> decide) rfl
  have hnumber {v : Value} (h : Kind.number.admits v = true) : HasType d "number" v :=
    hasType_of_kind (k := .number) (by cases d <;> decide) h
  have hboolean : HasType d "boolean" (.bool true) :=
    hasType_of_kind (k := .boolean) (by cases d <;> decide) rfl
  cases type with
  | none => exact hstring _
  | some name =>
    unfold JsonSchema.primitiveOf Profile.JsonPrimitive.ofText jsonValue
    dsimp only
    generalize Text.lower (Text.strip name) = key
    split
    · exact hboolean
    · exact hnumber rfl
    · exact hnumber rfl
    · exact hnumber rfl
    · rename_i hb hn hd hi
      split
      · exact absurd rfl hn
      · exact absurd rfl hd
      · exact absurd rfl hi
      · exact absurd rfl hb
      · exact hstring _

/-- A single value is neither an object nor an array. -/
lemma jsonValue_single (type : Option String) :
    (∀ parts, jsonValue type ≠ .object parts) ∧ ∀ parts, jsonValue type ≠ .array parts := by
  unfold jsonValue
  split
  · simp
  · split <;> simp

/-- The properties of an object and the members of its sample, one for each name. -/
lemma matches_entries {R : Value → Value → Prop} {entries : List (String × Bool × Shape)}
    (h : ∀ e ∈ entries, R (.object (membersOf e.2.2)) (ofShape e.2.2)) :
    Json.Matches R (Json.ofMembers (propertiesOf entries))
    (Json.ofMembers (entrySamples entries)) := by
  refine Json.Matches.ofMembers ?_
  unfold Json.Matches
  rw [propertiesOf_eq, entrySamples_eq, List.forall₂_map_left_iff, List.forall₂_map_right_iff,
    List.forall₂_same]
  exact fun e he => ⟨rfl, h e he⟩

/-- A name that is required has a member in the sample. -/
lemma exists_required {entries : List (String × Bool × Shape)} {name : String}
    (h : name ∈ requiredNames entries) :
    ∃ part, (Json.ofMembers (entrySamples entries)).lookup name = some part := by
  refine Json.exists_lookup (Json.mem_names_ofMembers.mpr ?_)
  rw [entrySamples_eq, List.map_map]
  obtain ⟨e, he, hname⟩ := List.mem_filterMap.mp h
  obtain ⟨n, required, shape⟩ := e
  dsimp only at hname
  split at hname
  · cases hname
    exact List.mem_map.mpr ⟨_, he, rfl⟩
  · cases hname

section
variable (d : Draft) {members : List (String × Value)}

lemma conforms_object {entries : List (String × Bool × Shape)}
    (hentries : ∀ e ∈ entries, IsValid d (.object (membersOf e.2.2)) (ofShape e.2.2) ∧
      Shows (.object (membersOf e.2.2)) (ofShape e.2.2))
    (h : Describes members (.object entries)) :
    IsValid d (.object members) (ofShape (.object entries)) ∧
      Shows (.object members) (ofShape (.object entries)) := by
  have htype : members.lookup "type" = some (.string "object") := h "type" (by decide)
  have hproperties : members.lookup "properties" =
      some (.object (Json.ofMembers (propertiesOf entries))) := h "properties" (by decide)
  have hitems : members.lookup "items" = none := by
    rw [h "items" (by decide), membersOf, JsonSchema.objectMembers]
    split <;> rfl
  have hmatches := matches_entries
    (R := fun schema sample => IsValid d schema sample ∧ Shows schema sample) hentries
  refine ⟨.keywords ?_ ?_ ?_ ?_, .object hproperties hmatches.names ?_ ?_⟩
  · intro keyword hkeyword
    obtain rfl := Option.some.inj (htype.symm.trans hkeyword)
    exact hasType_of_kind (k := .object) (by cases d <;> decide) rfl
  · intro known name schema part hknown hschema hpart
    obtain rfl := Value.object.inj (Option.some.inj (hproperties.symm.trans hknown))
    exact (hmatches.lookup hschema hpart).1
  · intro names name parts hnames hname hparts
    obtain rfl := Value.object.inj hparts
    refine exists_required ?_
    rw [h "required" (by decide), membersOf, JsonSchema.objectMembers] at hnames
    split at hnames
    · cases hnames
    · obtain rfl := Value.array.inj (Option.some.inj hnames)
      obtain ⟨n, hn, hsame⟩ := List.mem_map.mp hname
      exact Value.string.inj hsame ▸ hn
  · intro keyword position schema parts part hkeyword
    rw [hitems] at hkeyword
    cases hkeyword
  · exact Json.nodup_names_ofMembers _
  · exact hmatches.values.imp fun _ _ hpair => hpair.2

lemma conforms_array {item : Shape}
    (hitem : IsValid d (.object (membersOf item)) (ofShape item) ∧
      Shows (.object (membersOf item)) (ofShape item))
    (h : Describes members (.array item)) :
    IsValid d (.object members) (ofShape (.array item)) ∧
      Shows (.object members) (ofShape (.array item)) := by
  have htype : members.lookup "type" = some (.string "array") := h "type" (by decide)
  have hproperties : members.lookup "properties" = none := h "properties" (by decide)
  have hitems : members.lookup "items" = some (.object (membersOf item)) := h "items" (by decide)
  refine ⟨.keywords ?_ ?_ ?_ ?_, .array hitems hitem.2⟩
  · intro keyword hkeyword
    obtain rfl := Option.some.inj (htype.symm.trans hkeyword)
    exact hasType_of_kind (k := .array) (by cases d <;> decide) rfl
  · intro known name schema part hknown
    rw [hproperties] at hknown
    cases hknown
  · intro names name parts _ _ hparts
    cases hparts
  · intro keyword position schema parts part hkeyword hschema hparts hpart
    obtain rfl := Option.some.inj (hitems.symm.trans hkeyword)
    obtain rfl := Option.some.inj hschema
    obtain rfl := Value.array.inj hparts
    obtain rfl := List.mem_singleton.mp (List.mem_of_getElem? hpart)
    exact hitem.1

lemma conforms_single {type : Option String} (h : Describes members (.single type)) :
    IsValid d (.object members) (ofShape (.single type)) ∧
      Shows (.object members) (ofShape (.single type)) := by
  obtain ⟨hobject, harray⟩ := jsonValue_single type
  have htype : members.lookup "type" = some (.string (JsonSchema.primitiveOf type).name) :=
    h "type" (by decide)
  have hproperties : members.lookup "properties" = none := h "properties" (by decide)
  refine ⟨.keywords ?_ ?_ ?_ ?_, .single hobject harray⟩
  · intro keyword hkeyword
    obtain rfl := Option.some.inj (htype.symm.trans hkeyword)
    exact hasType_jsonValue d type
  · intro known name schema part hknown
    rw [hproperties] at hknown
    cases hknown
  · exact fun _ _ parts _ _ hparts => absurd hparts (hobject parts)
  · exact fun _ _ _ parts _ _ _ hparts _ => absurd hparts (harray parts)

/-- The sample of a shape conforms to every schema that says of it what its own schema does. -/
theorem conforms_ofShape (shape : Shape) : ∀ members, Describes members shape →
    IsValid d (.object members) (ofShape shape) ∧ Shows (.object members) (ofShape shape) := by
  induction shape using Shape.induction with
  | object entries ih => exact fun _ => conforms_object d fun e he => ih e he _ fun _ _ => rfl
  | array item ih => exact fun _ => conforms_array d (ih _ fun _ _ => rfl)
  | single type => exact fun _ => conforms_single d

/-- A schema of no keywords is one that everything is valid against. -/
lemma isValid_of_no_keywords (h : ∀ key ∈ keywords, members.lookup key = none) (v : Value) :
    IsValid d (.object members) v := by
  have hnone {key : String} (hkey : key ∈ keywords) {keyword : Value} :
      members.lookup key ≠ some keyword := by simp [h key hkey]
  exact .keywords (fun _ hk => absurd hk (hnone (by decide)))
    (fun _ _ _ _ hk => absurd hk (hnone (by decide)))
      (fun _ _ _ hk => absurd hk (hnone (by decide)))
    fun _ _ _ _ _ hk => absurd hk (hnone (by decide))

end

/-- The schema of the root object in the schema of a profile: a definition of its name, or the whole
where it has none. -/
def rootSchema? (d : Draft) (name : Option String) (schema : Value) : Option Value :=
  match name with
  | some name => (schema.member? d.definitionsKey).bind (·.member? name)
  | none => some schema

/-- The sample of a document conforms to the schema of the document. It is valid against the schema
of the root object and shows all of it; where there is no root object it is empty, and the schema
allows everything. -/
theorem json_sample_conforms {document profile : Node}
    (hprofile : document.findFirst? "JSONProfile" = some profile) (d : Draft) :
    ∃ schema sample, JsonSchema.convert d document = .ok schema ∧ jsonOf document = .ok sample ∧
      match rootObject? profile with
      | some object => ∃ root, rootSchema? d (Profile.filled? object ["name"]) schema = some root ∧
          IsValid d root sample ∧ Shows root sample
      | none => sample = .object [] ∧ schema = .object [("$schema", .string d.uri)] ∧
          ∀ v, IsValid d schema v := by
  have hread : ObjectProfile.ofDocument document = .ok ((rootObject? profile).map fun object =>
      ⟨Profile.filled? object ["name"], Profile.objectShape object⟩) := by
    rw [ObjectProfile.ofDocument, hprofile]
  refine ⟨_, _, by rw [JsonSchema.convert, hread], by rw [jsonOf, hread], ?_⟩
  cases rootObject? profile with
  | none => exact ⟨rfl, rfl, isValid_of_no_keywords d (by simp [keywords])⟩
  | some object =>
    have hconforms := conforms_ofShape d (Profile.objectShape object)
    simp only [Option.map_some, JsonSchema.schemaOf, ofProfile]
    cases Profile.filled? object ["name"] with
    | none =>
      refine ⟨_, rfl, hconforms _ fun key hkey => ?_⟩
      have hne : key ≠ "$schema" := by rintro rfl; exact absurd hkey (by decide)
      rw [List.lookup_cons, beq_false_of_ne hne]
    | some name =>
      refine ⟨_, ?_, hconforms _ fun _ _ => rfl⟩
      cases d <;> simp [rootSchema?, Value.member?, Draft.definitionsKey, List.lookup_cons]

/-- A profile of an object whose first entry is given again, and which holds a list of numbers. -/
def listingProfile : Node :=
  let entry (attributes : List (String × String)) (content : List Node) : Node :=
    .element (.plain "JSONObjectEntry") [] (attributes.map fun a => ⟨.plain a.1, a.2⟩) content
  .element (.plain "JSONProfile") [] [] [
    .element (.plain "JSONObject") [] [⟨.plain "name", "listing"⟩] [
      entry [("name", "open"), ("required", "true")] [],
      entry [("name", "sizes")] [
        .element (.plain "JSONArray") [] [⟨.plain "itemType", " Integer"⟩] []],
      entry [("name", "open"), ("type", "boolean")] []]]

def listing : Node := .element (.plain "Component") [] [] [listingProfile]

lemma line_listing : (jsonOf listing).toOption.map Value.line =
    some "\x7b\"open\":true,\"sizes\":[123]\x7d" := by decide +kernel

/-- The sample has the repeated entry once, as it was given last. -/
theorem listing_conforms : ∃ schema sample root,
    JsonSchema.convert .draft2020 listing = .ok schema ∧ jsonOf listing = .ok sample ∧
      sample.line = "\x7b\"open\":true,\"sizes\":[123]\x7d" ∧
      rootSchema? .draft2020 (some "listing") schema = some root ∧
      IsValid .draft2020 root sample ∧ Shows root sample := by
  have hprofile : listing.findFirst? "JSONProfile" = some listingProfile := rfl
  obtain ⟨schema, sample, hschema, hsample, root, hroot, hvalid, hshows⟩ :=
    json_sample_conforms hprofile .draft2020
  have hline := line_listing
  rw [hsample] at hline
  exact ⟨schema, sample, root, hschema, hsample, Option.some.inj hline, hroot, hvalid, hshows⟩

end Sample
end SchemaLoom
