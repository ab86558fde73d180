import Mathlib.Data.String.Basic
import SchemaLoom.Operation

/-! The end of a name: it stays the end of the last segment, and of the name that an operation
writes. -/
namespace SchemaLoom.Files

/-- One character more in front of segments. -/
def cut (c : Char) : List (List Char) → List (List Char)
  | part :: rest => if c == '/' then [] :: part :: rest else (c :: part) :: rest
  | [] => []

theorem segments_eq (name : String) :
    segments name = (name.toList.foldr cut [[]]).map String.ofList := by
  unfold segments
  congr 2

lemma foldr_cut_clean {cs : List Char} (h : '/' ∉ cs) : cs.foldr cut [[]] = [cs] := by
  induction cs with
  | nil => rfl
  | cons c cs ih =>
    have hc : c ≠ '/' := fun e => h (by simp [e])
    rw [List.foldr_cons, ih fun hm => h (List.mem_cons_of_mem _ hm)]
    simp [cut, hc]

/-- What stands in front may add to the last segment but not behind it. -/
lemma foldr_cut_last (cs last : List Char) :
    ∃ front more, cs.foldr cut [last] = front ++ [more ++ last] := by
  induction cs with
  | nil => exact ⟨[], [], rfl⟩
  | cons c cs ih =>
    obtain ⟨front, more, h⟩ := ih
    rw [List.foldr_cons, h]
    by_cases hc : c = '/'
    · subst hc
      cases front with
      | nil => exact ⟨[[]], more, by simp [cut]⟩
      | cons part front => exact ⟨[] :: part :: front, more, by simp [cut]⟩
    · cases front with
      | nil => exact ⟨[], c :: more, by simp [cut, hc]⟩
      | cons part front => exact ⟨(c :: part) :: front, more, by simp [cut, hc]⟩

section
variable {a b : String}

theorem segments_append (hb : '/' ∉ b.toList) :
    ∃ front more, segments (a ++ b) = front ++ [more ++ b] := by
  obtain ⟨front, more, h⟩ := foldr_cut_last a.toList b.toList
  refine ⟨front.map String.ofList, String.ofList more, ?_⟩
  rw [segments_eq, String.toList_append, List.foldr_append, foldr_cut_clean hb, h]
  simp

lemma append_ne_of_length {s : String} (h : s.length < b.length) : a ++ b ≠ s := by
  intro e
  have hlen := congrArg String.length e
  rw [String.length_append] at hlen
  omega

lemma intercalate_append (sep last : String) (front : List String) :
    ∃ before, sep.intercalate (front ++ [last]) = before ++ last := by
  by_cases h : front = []
  · exact ⟨"", by simp [h]⟩
  · exact ⟨_, by rw [String.intercalate_append_of_ne_nil h (by simp), String.intercalate_singleton]⟩

theorem Path.parts_append (hb : '/' ∉ b.toList) (hlen : 1 < b.length) :
    ∃ front more, (Path.ofText (a ++ b)).parts = front ++ [more ++ b] := by
  obtain ⟨front, more, h⟩ := segments_append (a := a) hb
  refine ⟨front.filter fun s => s != "" && s != ".", more, ?_⟩
  have hempty : more ++ b ≠ "" := append_ne_of_length (by rw [String.length_empty]; omega)
  have hdot : more ++ b ≠ "." := append_ne_of_length hlen
  simp [Path.ofText, h, List.filter_append, hempty, hdot]

theorem Path.text_join_append (p : Path) (hb : '/' ∉ b.toList) (hlen : 1 < b.length) :
    ∃ before, (p.join (a ++ b)).text = before ++ b := by
  obtain ⟨front, more, h⟩ := Path.parts_append (a := a) hb hlen
  obtain ⟨before, hbefore⟩ := intercalate_append "/" (more ++ b) (p.parts ++ front)
  refine ⟨p.anchor ++ (before ++ more), ?_⟩
  simp only [Path.text, Path.join, h, ← List.append_assoc, hbefore]
  simp [String.append_assoc]

end
end SchemaLoom.Files

namespace SchemaLoom

lemma Operation.slash_notMem_suffix (op : Operation) : '/' ∉ op.suffix.toList := by
  cases op <;> decide

lemma Operation.length_suffix (op : Operation) : 3 < op.suffix.length := by
  cases op <;> decide

/-- The file that an operation writes has the suffix of the operation. -/
theorem exists_suffix_of_outputName {input output : String} {outputDir : Yaml.Value}
    {op : Operation} (h : outputName input outputDir op = .ok output) :
    ∃ front, output = front ++ op.suffix := by
  unfold outputName at h
  cases hd : chosenDirectory outputDir with
  | error d =>
    rw [hd] at h
    cases h
  | ok directory =>
    rw [hd] at h
    cases h
    have hlen := op.length_suffix
    exact Files.Path.text_join_append _ op.slash_notMem_suffix (by omega)

end SchemaLoom
