import Mathlib.Data.List.Nodup
import SchemaLoom.Proofs.Json.Line
import SchemaLoom.Xsd.Signature

/-! The canonical text of a declaration tells apart all that a type is made of: primitive, facets,
attributes, and the elements in it with their ranges and digests. -/
namespace SchemaLoom.Xsd
open Profile (Primitive Facet Bound AttributeUse Facts)
open Json (Value)

lemma reference_injective : Function.Injective Primitive.reference := by
  intro a b
  cases a <;> cases b <;> simp [Primitive.reference]

lemma facetValue_injective : Function.Injective facetValue := by
  intro a b h
  cases a <;> cases b <;> grind [facetValue]

lemma facetsValue_injective : Function.Injective facetsValue := by
  intro a b h
  simp only [facetsValue, Value.array.injEq] at h
  exact facetValue_injective.list_map h

lemma attributeValue_injective : Function.Injective attributeValue := by
  rintro ⟨na, pa, fa, ra⟩ ⟨nb, pb, fb, rb⟩ h
  simp only [attributeValue, Value.array.injEq, List.cons.injEq, Value.string.injEq,
    Value.bool.injEq, and_true] at h
  obtain ⟨rfl, hp, hf, rfl⟩ := h
  obtain rfl := reference_injective hp
  obtain rfl := facetsValue_injective hf
  rfl

lemma boundValue_injective : Function.Injective boundValue := by
  intro a b h
  cases a <;> cases b <;> simp_all [boundValue]

lemma entryValue_injective : Function.Injective entryValue := by
  rintro ⟨na, ⟨la, ua⟩, da⟩ ⟨nb, ⟨lb, ub⟩, db⟩ h
  simp only [entryValue, Value.array.injEq, List.cons.injEq, Value.string.injEq, Value.int.injEq,
    and_true] at h
  obtain ⟨rfl, rfl, hu, rfl⟩ := h
  obtain rfl := boundValue_injective hu
  rfl

lemma allWhole_map {α : Type} {f : α → Value} (hf : ∀ a, (f a).isWhole) (xs : List α) :
    Json.allWhole (xs.map f) := by
  induction xs with
  | nil => rfl
  | cons a xs ih => simp [Json.allWhole, hf a, ih]

lemma isWhole_array {α : Type} {f : α → Value} (hf : ∀ a, (f a).isWhole) (xs : List α) :
    (Value.array (xs.map f)).isWhole := by simpa [Value.isWhole] using allWhole_map hf xs

lemma isWhole_facetsValue (facets : List Facet) : (facetsValue facets).isWhole :=
  isWhole_array (fun f => by cases f <;> rfl) facets

lemma isWhole_attributeValue (a : AttributeUse) : (attributeValue a).isWhole := by
  simp [attributeValue, Value.isWhole, Json.allWhole, isWhole_facetsValue]

lemma isWhole_entryValue (e : Entry) : (entryValue e).isWhole := by
  obtain ⟨n, ⟨l, u⟩, d⟩ := e
  cases u <;> rfl

lemma isWhole_signatureValue (withName : Bool) (f : Facts) (entries : List Entry) :
    (signatureValue withName f entries).isWhole := by
  have ha := isWhole_array isWhole_attributeValue f.attributes
  have he := isWhole_array isWhole_entryValue
    (entries.mergeSort fun a b => decide (a.name ≤ b.name))
  have ho := isWhole_array (fun _ => rfl : ∀ e : Entry, (Value.string e.name).isWhole) entries
  have hf := isWhole_facetsValue f.facets
  cases withName <;>
    simp [signatureValue, Value.isWhole, Json.membersWhole] at * <;> exact ⟨ha, he, hf, ho⟩

lemma eq_of_map_eq {α β : Type} {f : α → β} {xs ys : List α}
    (hf : ∀ x ∈ xs, ∀ y ∈ ys, f x = f y → x = y) (h : xs.map f = ys.map f) : xs = ys := by
  induction xs generalizing ys with
  | nil => simpa using h.symm
  | cons x xs ih =>
    cases ys with
    | nil => simp at h
    | cons y ys =>
      simp only [List.map_cons, List.cons.injEq] at h
      rw [hf x (by simp) y (by simp) h.1,
        ih (fun a ha b hb => hf a (by simp [ha]) b (by simp [hb])) h.2]

/-- Entries of distinct names are known from their sorted list and the order of their names. -/
lemma entries_eq_of_sorted {le : Entry → Entry → Bool} {es es' : List Entry}
    (hnodup : (es'.map Entry.name).Nodup) (hsorted : es.mergeSort le = es'.mergeSort le)
    (horder : es.map Entry.name = es'.map Entry.name) : es = es' := by
  have hperm : es.Perm es' :=
    (List.mergeSort_perm es le).symm.trans (hsorted ▸ List.mergeSort_perm es' le)
  apply eq_of_map_eq _ horder
  intro x hx y hy hxy
  exact List.inj_on_of_nodup_map hnodup (hperm.mem_iff.mp hx) hy hxy

/-- Equal texts are texts of equal parts. -/
theorem signature_injective {withName : Bool} {f f' : Facts} {es es' : List Entry}
    (hnodup : (es'.map Entry.name).Nodup)
    (h : signature withName f es = signature withName f' es') :
    f.primitive = f'.primitive ∧ f.facets = f'.facets ∧ f.attributes = f'.attributes ∧ es = es' ∧
      (withName → f.name = f'.name) := by
  have hv := Json.line_injective (isWhole_signatureValue withName f es)
    (isWhole_signatureValue withName f' es') h
  have hparts : f.attributes.map attributeValue = f'.attributes.map attributeValue ∧
      (es.mergeSort fun a b => decide (a.name ≤ b.name)).map entryValue =
        (es'.mergeSort fun a b => decide (a.name ≤ b.name)).map entryValue ∧
      facetsValue f.facets = facetsValue f'.facets ∧ (withName → f.name = f'.name) ∧
      es.map (fun e => Value.string e.name) = es'.map (fun e => Value.string e.name) ∧
      f.primitive.reference = f'.primitive.reference := by
    cases withName <;> simpa [signatureValue] using hv
  obtain ⟨ha, he, hf, hn, ho, hp⟩ := hparts
  have hnames : es.map Entry.name = es'.map Entry.name := by
    have hs : Function.Injective Value.string := fun a b hab => by simpa using hab
    apply hs.list_map
    simpa [List.map_map, Function.comp_def] using ho
  refine ⟨reference_injective hp, facetsValue_injective hf,
    attributeValue_injective.list_map ha, ?_, hn⟩
  exact entries_eq_of_sorted hnodup (entryValue_injective.list_map he) hnames

end SchemaLoom.Xsd
