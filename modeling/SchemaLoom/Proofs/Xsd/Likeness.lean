import Mathlib.Data.List.Forall2
import SchemaLoom.Proofs.Profile.Document
import SchemaLoom.Proofs.Traversal
import SchemaLoom.Proofs.Xml.Tree
import SchemaLoom.Xsd.Render

/-! Profiles that say the same in other words. A schema depends on what is read of the declarations
in a document, and not on how it is written there. -/
namespace SchemaLoom.Xsd
open Profile (Declaration Facts AttributeUse Source nameOf primitiveOf facetsOf isRequired filled?
  elementTag attributeTag)
open Xml (Node)

/-- Two elements declare the same attribute. -/
structure SameUse (a b : Node) : Prop where
  name : nameOf a = nameOf b
  primitive : primitiveOf a = primitiveOf b
  facets : facetsOf a (primitiveOf a) = facetsOf b (primitiveOf b)
  required : isRequired a = isRequired b

/-- Two elements declare the same element, and so do the declarations in them in their order. Where
declarations of attributes stand between those of elements does not count, nor does what else there
is. -/
inductive Alike : Node → Node → Prop
  | intro {a b : Node} (name : nameOf a = nameOf b) (primitive : primitiveOf a = primitiveOf b)
    (facets : facetsOf a (primitiveOf a) = facetsOf b (primitiveOf b))
    (range : Profile.rangeOf a = Profile.rangeOf b)
    (attributes : List.Forall₂ SameUse (a.childrenNamed attributeTag)
    (b.childrenNamed attributeTag))
    (children : List.Forall₂ Alike (a.childrenNamed elementTag) (b.childrenNamed elementTag)) :
    Alike a b

/-- Two documents hold profiles of one namespace that declare the same. -/
structure SameProfile (a b : Source) : Prop where
  uri : a.uri = b.uri
  roots : List.Forall₂ Alike (a.holder.childrenNamed elementTag) (b.holder.childrenNamed elementTag)

lemma SameUse.ofNode_eq {a b : Node} (h : SameUse a b) : AttributeUse.ofNode b = .ofNode a := by
  rw [AttributeUse.ofNode, AttributeUse.ofNode, h.name, h.facets, h.primitive, h.required]

lemma Declaration.eq_of_parts {d e : Declaration} (hfacts : d.facts = e.facts)
    (hchildren : d.children = e.children) : d = e := by
  obtain ⟨f, ds⟩ := d
  obtain ⟨g, es⟩ := e
  cases hfacts
  cases hchildren
  rfl

/-- Elements that are alike are read as one declaration. -/
theorem Alike.ofNode_eq {a b : Node} (h : Alike a b) : Declaration.ofNode b = .ofNode a := by
  induction a using Node.induction generalizing b with
  | h a ih =>
    obtain ⟨name, primitive, facets, range, attributes, children⟩ := h
    have hattributes := map_eq_map_of_forall₂ (attributes.imp fun _ _ h => h.ofNode_eq)
    have hbelow : ∀ k ∈ a.childrenNamed elementTag, k ∈ a.content := fun k hk =>
      (List.mem_filter.mp hk).1
    have hchildren := ((List.forall₂_and_left _ _).mpr ⟨hbelow, children⟩).imp
      fun k m hkm => ih k hkm.1 hkm.2
    refine Declaration.eq_of_parts ?_ ?_
    · rw [Profile.facts_ofNode, Profile.facts_ofNode, Facts.ofNode, Facts.ofNode, name,
        facets, primitive, range, hattributes]
    · rw [Profile.children_ofNode, Profile.children_ofNode, map_eq_map_of_forall₂ hchildren]

lemma SameProfile.profile_eq {a b : Source} (h : SameProfile a b) : a.profile = b.profile := by
  have hroots := map_eq_map_of_forall₂ (h.roots.imp fun _ _ h => h.ofNode_eq)
  rw [← Profile.roots_profile, ← Profile.roots_profile] at hroots
  exact congrArg₂ Profile.ElementProfile.mk h.uri hroots.symm

/-- Documents whose profiles say the same are converted to the same text, or fail in the same
way. -/
theorem convert_eq_of_sameProfile {a b : Node} {source source' : Source}
    (ha : Source.ofDocument a = .ok source) (hb : Source.ofDocument b = .ok source')
    (h : SameProfile source source') (s : Settings) : convert s a = convert s b := by
  rw [convert, convert, Profile.profile_ofDocument ha, Profile.profile_ofDocument hb, h.profile_eq]

def plainKey : Node :=
  .element (.plain attributeTag) [] [⟨.plain "name", "key"⟩, ⟨.plain "required", "true"⟩] []

def plainItem : Node :=
  .element (.plain elementTag) [] [⟨.plain "name", "item"⟩, ⟨.plain "dataType", "number"⟩,
    ⟨.plain "minOccurs", "0"⟩, ⟨.plain "maxOccurs", "-1"⟩] []

/-- A profile of orders with a key and items. -/
def plainSource : Source :=
  ⟨some "urn:orders", .element (.plain "DataElements") [] [] [
    .element (.plain elementTag) [] [⟨.plain "name", "order"⟩] [plainKey, plainItem]]⟩

def plainDocument : Node :=
  .element (.plain "XMLProfile") [] [⟨.plain "namespace", "urn:orders"⟩] [plainSource.holder]

def wordyKey : Node :=
  .element (.plain attributeTag) [] [⟨.plain "name", "key"⟩, ⟨.plain "mandatory", " TRUE"⟩] []

def wordyItem : Node :=
  .element (.plain elementTag) [] [⟨.plain "name", "item"⟩, ⟨.plain "type", " Decimal"⟩,
    ⟨.plain "minOccurs", " "⟩, ⟨.plain "isRequired", "no"⟩, ⟨.plain "max", "Unbounded"⟩]
    [.text "an item"]

/-- The same in other words: an item comes before the key, and there are remarks. -/
def wordySource : Source :=
  ⟨some "urn:orders", .element (.plain "DataElements") [] [] [
    .element (.plain elementTag) [] [⟨.plain "id", "7"⟩, ⟨.plain "name", "order"⟩]
      [wordyItem, .element (.plain "Remark") [] [] [], wordyKey]]⟩

def wordyProfile : Node :=
  .element (.plain "XMLProfile") [] [⟨.plain "namespace", " urn:orders "⟩]
    [.element (.plain "Remark") [] [] [], wordySource.holder]

def wordyDocument : Node :=
  .element ⟨"bns", "Component", some "urn:platform"⟩ [("bns", "urn:platform")] [] [wordyProfile]

lemma sameUse_keys : SameUse plainKey wordyKey :=
  ⟨by decide, by decide +kernel, by decide +kernel, by decide +kernel⟩

lemma alike_items : Alike plainItem wordyItem :=
  .intro (by decide) (by decide +kernel) (by decide +kernel) (by decide +kernel) .nil .nil

lemma sameProfile_wordy : SameProfile plainSource wordySource := by
  refine ⟨rfl, .cons (.intro ?_ ?_ ?_ ?_ (.cons sameUse_keys .nil) (.cons alike_items .nil)) .nil⟩
  · decide
  · decide +kernel
  · decide +kernel
  · decide +kernel

lemma ofDocument_plain : Source.ofDocument plainDocument = .ok plainSource := by
  have huri : (filled? plainDocument ["namespace"]).map Text.strip = some "urn:orders" := by
    decide +kernel
  change Except.ok (⟨(filled? plainDocument ["namespace"]).map Text.strip, _⟩ : Source) = _
  rw [huri]
  rfl

lemma ofDocument_wordy : Source.ofDocument wordyDocument = .ok wordySource := by
  have huri : (filled? wordyProfile ["namespace"]).map Text.strip = some "urn:orders" := by
    decide +kernel
  change Except.ok (⟨(filled? wordyProfile ["namespace"]).map Text.strip, _⟩ : Source) = _
  rw [huri]
  rfl

/-- The two documents are converted alike under all settings. -/
theorem wordy_converted_as_plain : Source.ofDocument plainDocument = .ok plainSource ∧
    Source.ofDocument wordyDocument = .ok wordySource ∧ SameProfile plainSource wordySource ∧
    ∀ s, convert s plainDocument = convert s wordyDocument :=
  ⟨ofDocument_plain, ofDocument_wordy, sameProfile_wordy,
    convert_eq_of_sameProfile ofDocument_plain ofDocument_wordy sameProfile_wordy⟩

end SchemaLoom.Xsd
