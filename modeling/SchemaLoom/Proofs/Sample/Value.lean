import SchemaLoom.Proofs.Xml.Scanning
import SchemaLoom.Proofs.Xsd.Validity
import SchemaLoom.Sample.Value

/-! Sample texts are values of their types, of words alone, and have the lengths that are asked for
where the least one is not above the greatest. -/
namespace SchemaLoom.Sample
open Profile (Primitive Facet facetsOf length?)
open Xml (Node)
open Xsd (spells meets IsValue)

lemma spells_textOf (p : Primitive) : spells p (textOf p) = true := by
  cases p <;> decide +kernel

theorem spells_sampleText (p : Primitive) (facets : List Facet) :
    spells p (sampleText p facets) = true := by
  unfold sampleText
  split
  · rename_i hp
    rw [eq_of_beq hp]
    rfl
  · exact spells_textOf p

def boundsOf (least most : Option Nat) : LengthBounds := ⟨least.map Int.ofNat, most.map Int.ofNat⟩

lemma ofFacets_lengths (least most : Option Nat) :
    LengthBounds.ofFacets ((least.map Facet.minLength).toList ++
    (most.map Facet.maxLength).toList) =
      boundsOf least most := by
  cases least <;> cases most <;> rfl

lemma length_fitted (least most : Option Nat) (s : String) :
    (fitted (boundsOf least most) s).length =
      max (least.getD 0) (most.elim s.length fun n => min n s.length) := by
  have hcut (n : Nat) : cut (n : Int) s.toList = s.toList.take n := rfl
  cases least <;> cases most <;>
    simp only [fitted, LengthBounds.front, LengthBounds.gap, boundsOf, Option.map_none,
      Option.map_some, hcut, String.length_ofList, List.length_append, List.length_replicate,
      List.length_take, String.length_toList, Option.getD_none, Option.getD_some, Option.elim_none,
      Option.elim_some, Int.ofNat_eq_natCast] <;>
    omega

/-- A sample text that can be made is the one of its type and facets. -/
lemma eq_of_sampleText {p : Primitive} {facets : List Facet} {text : String}
    (h : sampleText? p facets = some text) : text = sampleText p facets := by
  unfold sampleText? fitLength? at h
  unfold sampleText
  split at h
  · rename_i hp
    split at h
    · simpa [hp] using h.symm
    · cases h
  · rename_i hp
    simpa [hp] using h.symm

lemma worded_textOf (p : Primitive) : Xml.Worded (textOf p) := by
  have hall : (textOf p).toList.all Xml.isWordChar = true := by
    cases p <;> decide +kernel
  exact List.all_eq_true.mp hall

lemma mem_of_mem_front {bounds : LengthBounds} {s : String} {c : Char}
    (h : c ∈ bounds.front s) : c ∈ s.toList := by
  unfold LengthBounds.front cut at h
  split at h
  · split at h
    · exact List.mem_of_mem_take h
    · exact List.mem_of_mem_take h
  · exact h

/-- A sample text is written as it is. -/
theorem worded_sampleText (p : Primitive) (facets : List Facet) :
    Xml.Worded (sampleText p facets) := by
  unfold sampleText
  split
  · intro c hc
    rw [fitted, String.toList_ofList] at hc
    obtain hc | hc := List.mem_append.mp hc
    · exact worded_textOf p c (mem_of_mem_front hc)
    · rw [List.eq_of_mem_replicate hc]
      decide
  · exact worded_textOf p

/-- Facets that sample texts can meet: there is no pattern, and the least length is not above the
greatest. -/
structure Meetable (facets : List Facet) : Prop where
  unpatterned : ∀ text, .pattern text ∉ facets
  ordered : ∀ least most, .minLength least ∈ facets → .maxLength most ∈ facets → least ≤ most

lemma facetsOf_eq {n : Node} {p : Primitive} (h : ∀ text, .pattern text ∉ facetsOf n p) :
    facetsOf n p =
      if p == .string then ((length? n "minLength").map Facet.minLength).toList ++
        ((length? n "maxLength").map Facet.maxLength).toList
      else [] := by
  unfold facetsOf at h ⊢
  cases hp : Profile.filled? n ["pattern"] with
  | none => simp
  | some text =>
    rw [hp] at h
    exact absurd (by simp) (h text)

theorem isValue_sampleText {n : Node} {p : Primitive} (h : Meetable (facetsOf n p)) :
    IsValue p (facetsOf n p) (sampleText p (facetsOf n p)) := by
  refine ⟨spells_sampleText p _, ?_⟩
  obtain ⟨hpattern, hordered⟩ := h
  rw [facetsOf_eq hpattern] at hordered ⊢
  unfold sampleText
  split
  · rename_i hp
    simp only [hp, if_true] at hordered
    rw [ofFacets_lengths]
    generalize length? n "minLength" = least at hordered ⊢
    generalize length? n "maxLength" = most at hordered ⊢
    intro f hf
    simp only [List.mem_append, Option.mem_toList, Option.map_eq_some_iff] at hf
    obtain ⟨a, ha, rfl⟩ | ⟨b, hb, rfl⟩ := hf
    · simp only [meets, length_fitted, ha, Option.getD_some]
      omega
    · simp only [meets, length_fitted, hb, Option.elim_some]
      cases least with
      | none =>
        rw [Option.getD_none]
        omega
      | some a =>
        have hab : a ≤ b := hordered a b (by simp) (by simp [hb])
        rw [Option.getD_some]
        omega
  · simp

end SchemaLoom.Sample
