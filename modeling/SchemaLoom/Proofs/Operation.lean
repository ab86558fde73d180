import SchemaLoom.Proofs.Files.Normal

/-! The file that an operation reads and the files that it writes: only a schema of XML can be
written over its own input, where that is named like one. -/
namespace SchemaLoom
open Files (Path)

namespace Files.Path
variable {p place : Path} {s input : String}

lemma eq_of_name (h : p.name ≠ "") : p = ⟨p.anchor, p.parent.parts ++ [p.name]⟩ := by
  obtain ⟨anchor, parts⟩ := p
  obtain rfl | ⟨front, last, rfl⟩ := List.eq_nil_or_concat parts
  · exact absurd rfl h
  · simp [parent, name]

lemma isSegment_name (h : (ofText input).name ≠ "") : IsSegment (ofText input).name := by
  have hparts := congrArg parts (eq_of_name h)
  refine (isNormal_ofText input).parts _ (hparts ▸ ?_)
  exact List.mem_append_right _ List.mem_cons_self

lemma slash_notMem_stem (h : (ofText input).name ≠ "") : '/' ∉ (ofText input).stem.toList := by
  have hname := (isSegment_name h).noSlash
  obtain hstem | ⟨suffix, -, hsuffix⟩ := stem_cases (ofText input)
  · rwa [hstem]
  · rw [hsuffix] at hname
    exact fun hmem => hname (List.mem_append_left _ hmem)

/-- A name that is its stem with something behind it has a last suffix, which is that. -/
lemma dot_of_stem_append {suffix : String} (hne : suffix ≠ "") (h : p.stem ++ suffix = p.name) :
    ∃ rest : List Char, '.' ∉ rest ∧ suffix.toList = '.' :: rest := by
  have hlist := congrArg String.toList h
  rw [String.toList_append] at hlist
  obtain hstem | ⟨rest, hrest, hname⟩ := stem_cases p
  · rw [hstem] at hlist
    exact absurd (by simpa using hlist) hne
  · rw [hname] at hlist
    exact ⟨rest, hrest, List.append_cancel_left hlist⟩

/-- A place below another one is a given name just if the names agree and the places above them. -/
lemma join_eq_iff (hs : IsSegment s) (h : p.name ≠ "") :
    place.join s = p ↔ place = p.parent ∧ s = p.name := by
  have hp := eq_of_name h
  rw [join_of_isSegment hs]
  constructor
  · intro he
    rw [hp, Path.mk.injEq] at he
    obtain ⟨hparts, hname⟩ := List.append_inj' he.2 rfl
    refine ⟨?_, by simpa using hname⟩
    cases place
    rw [Path.mk.injEq]
    exact ⟨he.1, hparts⟩
  · rintro ⟨rfl, rfl⟩
    exact hp.symm

/-- Names below a place have the same text in front of them. -/
lemma exists_text_join (place : Path) :
    ∃ before, ∀ s, IsSegment s → (place.join s).text = before ++ s := by
  by_cases hnone : place.parts = []
  · refine ⟨place.anchor, fun s hs => ?_⟩
    simp [join_of_isSegment hs, text, hnone]
  · refine ⟨place.anchor ++ ("/".intercalate place.parts ++ "/"), fun s hs => ?_⟩
    rw [join_of_isSegment hs]
    simp [text, String.intercalate_append_of_ne_nil hnone, String.append_assoc]

end Files.Path

/-! ## Results and inputs -/

/-- The place of a result: the directory that is chosen, or the one of the input. -/
def resultPlace (directory : Option String) (input : String) : Path :=
  match directory with
  | some name => Path.ofText name
  | none => (Path.ofText input).parent

section
variable {input : String} {outputDir : Yaml.Value} {directory : Option String}

lemma isNormal_resultPlace (directory : Option String) (input : String) :
    (resultPlace directory input).IsNormal := by
  cases directory with
  | none => exact (Path.isNormal_ofText input).parent
  | some name => exact Path.isNormal_ofText name

lemma outputName_eq (h : chosenDirectory outputDir = .ok directory) (op : Operation) :
    outputName input outputDir op =
      .ok ((resultPlace directory input).join ((Path.ofText input).stem ++ op.suffix)).text := by
  rw [outputName, h]
  rfl

/-- What is put behind a stem makes it a segment. -/
lemma isSegment_stem_append (hname : (Path.ofText input).name ≠ "") {suffix : String}
    (hslash : '/' ∉ suffix.toList) (hlength : 1 < suffix.length) :
    Path.IsSegment ((Path.ofText input).stem ++ suffix) where
  noSlash := by
    rw [String.toList_append]
    exact fun hmem => (List.mem_append.mp hmem).elim (Path.slash_notMem_stem hname) hslash
  nonempty := Files.append_ne_of_length (by rw [String.length_empty]; omega)
  noDot := Files.append_ne_of_length hlength

lemma Operation.eq_xsd_of_suffix {op : Operation} {rest : List Char} (hdot : '.' ∉ rest)
    (h : op.suffix.toList = '.' :: rest) : op = .xsd := by
  cases op with
  | xsd => rfl
  | xmlSample => exact absurd (List.cons.inj h).1 (by decide)
  | jsonSchema =>
    obtain rfl : rest = "schema.json".toList := (List.cons.inj h).2.symm
    exact absurd (by decide) hdot
  | jsonSample => exact absurd (List.cons.inj h).1 (by decide)

/-- The copy of a schema in YAML stands beside it. -/
lemma yamlName_join (place : Path) (hname : (Path.ofText input).name ≠ "") :
    yamlName (place.join ((Path.ofText input).stem ++ ".schema.json")).text =
      (place.join ((Path.ofText input).stem ++ ".schema.yaml")).text := by
  obtain ⟨before, htext⟩ := place.exists_text_join
  have hschema : Path.IsSegment ((Path.ofText input).stem ++ ".schema.json") :=
    isSegment_stem_append hname (by decide) (by decide)
  rw [htext _ hschema, htext _ (isSegment_stem_append hname (by decide) (by decide))]
  have hparts : (Path.ofText input).stem ++ ".schema.json" =
      (Path.ofText input).stem ++ ".schema" ++ "." ++ "json" := by
    simp only [String.append_assoc]
    rfl
  rw [yamlName, hparts, Files.withoutSuffix_append]
  · simp only [String.append_assoc]
    rfl
  · exact hparts ▸ hschema.noSlash
  · decide
  · exact ⟨'s', by simp, by decide⟩

/-- A result is written over its input just if it is a schema of XML, the input has the suffix of
one, and its place is that of the input. The copy of a schema in YAML is never written over the
input. -/
theorem result_over_input_iff (hname : (Path.ofText input).name ≠ "")
    (hdir : chosenDirectory outputDir = .ok directory) (op : Operation) :
    ∃ output, outputName input outputDir op = .ok output ∧
      (Path.ofText output = Path.ofText input ↔ op = .xsd ∧
        (Path.ofText input).name = (Path.ofText input).stem ++ ".xsd" ∧
        resultPlace directory input = (Path.ofText input).parent) ∧
      (op = .jsonSchema → Path.ofText (yamlName output) ≠ Path.ofText input) := by
  have hplace := isNormal_resultPlace directory input
  have hsegment := isSegment_stem_append hname op.slash_notMem_suffix
      (Nat.lt_trans (by decide) op.length_suffix)
  refine ⟨_, outputName_eq hdir op, ?_, ?_⟩
  · rw [Path.ofText_text (hplace.join hsegment), Path.join_eq_iff hsegment hname]
    constructor
    · rintro ⟨hsame, hstem⟩
      have hne : op.suffix ≠ "" := by cases op <;> decide
      obtain ⟨rest, hrest, hsuffix⟩ := Path.dot_of_stem_append hne hstem
      obtain rfl := Operation.eq_xsd_of_suffix hrest hsuffix
      exact ⟨rfl, hstem.symm, hsame⟩
    · rintro ⟨rfl, hstem, hsame⟩
      exact ⟨hsame, hstem.symm⟩
  · rintro rfl
    have hcopy : Path.IsSegment ((Path.ofText input).stem ++ ".schema.yaml") :=
      isSegment_stem_append hname (by decide) (by decide)
    change Path.ofText (yamlName
      ((resultPlace directory input).join ((Path.ofText input).stem ++ ".schema.json")).text) ≠ _
    rw [yamlName_join _ hname, Path.ofText_text (hplace.join hcopy), Ne,
      Path.join_eq_iff hcopy hname]
    rintro ⟨-, hstem⟩
    obtain ⟨rest, hrest, hsuffix⟩ := Path.dot_of_stem_append (by decide) hstem
    obtain rfl : rest = "schema.yaml".toList := (List.cons.inj hsuffix).2.symm
    exact absurd (by decide) hrest

end

/-- A directory that is chosen may be that of the input in another spelling. -/
theorem nested_schema_over_itself : (Path.ofText "in/p.xsd").name ≠ "" ∧
    chosenDirectory (.string "./in/") = .ok (some "./in/") ∧
    ∃ output, outputName "in/p.xsd" (.string "./in/") .xsd = .ok output ∧
      Path.ofText output = Path.ofText "in/p.xsd" := by
  have hname : (Path.ofText "in/p.xsd").name ≠ "" := by decide +kernel
  have hdir : chosenDirectory (.string "./in/") = .ok (some "./in/") := rfl
  obtain ⟨output, houtput, hover, -⟩ := result_over_input_iff hname hdir .xsd
  exact ⟨hname, hdir, output, houtput, hover.mpr ⟨rfl, by decide +kernel, by decide +kernel⟩⟩

/-- The schema of a profile whose name ends like that of a schema is written over the profile. -/
theorem profile_overwritten : (Path.ofText "p.xsd").name ≠ "" ∧
    outputName "p.xsd" .null .xsd = .ok "p.xsd" :=
  ⟨by decide +kernel, congrArg Except.ok (by decide +kernel)⟩

/-- A dot in front begins no suffix. -/
example : (outputName ".xsd" .null .xsd).toOption = some ".xsd.xsd" := by decide +kernel

end SchemaLoom
