import SchemaLoom.Proofs.Conversion

/-! All or nothing: a run that has no result leaves every file as it was, and one that has a result
writes just this result, and beside it no more than a copy. -/
namespace SchemaLoom
open Files (Store Place AccessFault)
open Profile (ConversionError)

section
variable {t u : Store} {texts : List (String × String)} {name text : String} {p q : Place}

lemma locate_writeTexts :
    (writeTexts t texts).2.locate name = .ok q ↔ t.locate name = .ok q := by
  induction texts generalizing t with
  | nil => rfl
  | cons entry rest ih =>
    obtain ⟨other, text⟩ := entry
    cases h : t.write other text.toUTF8.toList with
    | error fault => simp only [writeTexts, h]
    | ok u =>
      obtain ⟨p, hp⟩ := Files.Store.puts_of_write h
      simp only [writeTexts, h]
      rw [ih, hp.locate]

/-- Writing texts changes no place but those of their names. -/
theorem entry_writeTexts (hq : ∀ text ∈ texts, t.locate text.1 ≠ .ok q) :
    Store.entry? (writeTexts t texts).2 q = t.entry? q := by
  induction texts generalizing t with
  | nil => rfl
  | cons entry rest ih =>
    obtain ⟨other, text⟩ := entry
    cases h : t.write other text.toUTF8.toList with
    | error fault => simp only [writeTexts, h]
    | ok u =>
      obtain ⟨p, hp⟩ := Files.Store.puts_of_write h
      have hne : q ≠ p := fun e => hq _ List.mem_cons_self (e ▸ hp.located)
      have hrest : ∀ text ∈ rest, u.locate text.1 ≠ .ok q := fun text htext hl =>
        hq text (List.mem_cons_of_mem _ htext) (hp.locate.mp hl)
      simp only [writeTexts, h]
      rw [ih hrest, hp.entry_eq, if_neg hne]

/-- The first of texts that are written is read as it was given, unless a later one has its
place. -/
theorem read_writeTexts
    (hrest : ∀ p, t.locate name = .ok p → ∀ text ∈ texts, t.locate text.1 ≠ .ok p)
    (h : (writeTexts t ((name, text) :: texts)).1 = .ok ()) :
    (writeTexts t ((name, text) :: texts)).2.read name = .ok text.toUTF8.toList := by
  cases hw : t.write name text.toUTF8.toList with
  | error fault =>
    simp only [writeTexts, hw] at h
    cases h
  | ok u =>
    obtain ⟨p, hp⟩ := Files.Store.puts_of_write hw
    have hlater : ∀ text ∈ texts, u.locate text.1 ≠ .ok p := fun text htext hl =>
      hrest p hp.located text htext (hp.locate.mp hl)
    simp only [writeTexts, hw]
    apply Files.Store.read_of_entry (locate_writeTexts.mpr (hp.locate.mpr hp.located)) hp.plain
    rw [entry_writeTexts hlater, hp.entry_eq, if_pos rfl]

end

/-- A schema of JSON and its copy in YAML have different places. -/
lemma locate_yamlName_ne {t : Store} {front : String} {p : Place}
    (h : t.locate (front ++ ".schema.json") = .ok p) (output : String) :
    t.locate (yamlName output) ≠ .ok p := by
  intro hcopy
  obtain ⟨above, more, rfl⟩ := Files.Store.locate_append (by decide) (by decide) h
  obtain ⟨above', more', he⟩ := Files.Store.locate_append (by decide) (by decide) hcopy
  have hlast : more ++ ".schema.json" = more' ++ ".yaml" := by
    simpa using (List.append_inj' he rfl).2
  have hchar := congrArg (fun s => s.toList.getLast?) hlast
  simp at hchar

/-- What a run has to write, wherever that is: the text that its operation makes of the document in
its input file. -/
def pureResult (c : Config) (t : Store) (input code : String) : Except RunFault String :=
  match Operation.ofCode? code with
  | none => .error (.unknownOperation code)
  | some op =>
    match documentOf t input with
    | .error fault => .error fault
    | .ok document => (resultOf c document op).mapError .conversion

/-- A fault of the place of a result, not of the result. -/
def RunFault.OfPlace : RunFault → Prop
  | .access _ => True
  | .directory _ => True
  | _ => False

/-- The files are as they were. At most the directory that is chosen has been made. -/
structure Untouched (c : Config) (t u : Store) : Prop where
  files : ∀ q octets, u.entry? q = some (.file octets) ↔ t.entry? q = some (.file octets)
  made : u = t ∨ ∃ name, chosenDirectory c.outputDir = .ok (some name) ∧
    u = (t.makeDirectories name).2

/-- A file of the right name holds a text. No other file has changed but for the copy in YAML, which
only a schema of JSON can have. -/
structure Wrote (c : Config) (input : String) (op : Operation) (text : String) (t : Store)
    (output : String) (u : Store) : Prop where
  named : outputName input c.outputDir op = .ok output
  content : u.read output = .ok text.toUTF8.toList
  others : ∀ q octets, u.locate output ≠ .ok q →
    (op = .jsonSchema → c.writeYaml = true → u.locate (yamlName output) ≠ .ok q) →
    (u.entry? q = some (.file octets) ↔ t.entry? q = some (.file octets))

/-- All of a result or nothing. Without a result the run fails and no file changes; it fails for the
lack of a result or for its place; and where it succeeds it has written its result and nothing
else. -/
structure AllOrNothing (c : Config) (input code : String) (t : Store)
    (r : Except RunFault String) (u : Store) : Prop where
  nothing : ∀ fault, pureResult c t input code = .error fault →
    (∃ other, r = .error other) ∧ Untouched c t u
  blamed : ∀ fault, r = .error fault →
    pureResult c t input code = .error fault ∨ fault.OfPlace
  all : ∀ output, r = .ok output → ∃ op text, Operation.ofCode? code = some op ∧
    pureResult c t input code = .ok text ∧ Wrote c input op text t output u

section
variable {c : Config} {input code output text : String} {op : Operation} {document : Xml.Node}
  {t u : Store}

@[refl] lemma Untouched.refl (c : Config) (t : Store) : Untouched c t t where
  files _ _ := Iff.rfl
  made := .inl rfl

lemma untouched_prepared (c : Config) (t : Store) : Untouched c t (prepared c t).2 := by
  unfold prepared
  cases hchosen : chosenDirectory c.outputDir with
  | error d => rfl
  | ok directory =>
    cases directory with
    | none => rfl
    | some name =>
      exact ⟨fun _ _ => (Files.Store.grown_makeDirectories t name).file_iff,
        .inr ⟨name, hchosen, rfl⟩⟩

lemma ofPlace_of_prepared {fault : RunFault} (h : (prepared c t).1 = .error fault) :
    fault.OfPlace := by
  obtain ⟨d, -, rfl⟩ | ⟨f, rfl⟩ := prepared_error h
  · trivial
  · trivial

lemma mem_copiesOf {copy : String × String} (h : copy ∈ copiesOf c document output op) :
    op = .jsonSchema ∧ c.writeYaml = true ∧ copy.1 = yamlName output := by
  cases op with
  | jsonSchema =>
    cases hyaml : c.writeYaml with
    | false => simp [copiesOf, hyaml] at h
    | true =>
      simp only [copiesOf, hyaml, if_true, Option.mem_toList, Option.map_eq_some_iff] at h
      obtain ⟨schema, -, rfl⟩ := h
      exact ⟨rfl, rfl, rfl⟩
  | xsd => simp [copiesOf] at h
  | xmlSample => simp [copiesOf] at h
  | jsonSample => simp [copiesOf] at h

/-- Once all is written, it is the result of the operation that stands in its place. -/
lemma wrote_of_writeTexts (hname : outputName input c.outputDir op = .ok output)
    (htexts : (writeTexts u ((output, text) :: copiesOf c document output op)).1 = .ok ())
    (hfiles : ∀ q octets, u.entry? q = some (.file octets) ↔ t.entry? q = some (.file octets)) :
    Wrote c input op text t output
      (writeTexts u ((output, text) :: copiesOf c document output op)).2 where
  named := hname
  content := by
    apply read_writeTexts _ htexts
    intro p hp copy hcopy
    obtain ⟨rfl, -, hyaml⟩ := mem_copiesOf hcopy
    obtain ⟨front, rfl⟩ := exists_suffix_of_outputName hname
    rw [hyaml]
    exact locate_yamlName_ne hp _
  others q octets hq hcopy := by
    rw [← hfiles, entry_writeTexts]
    intro entry hentry hl
    obtain rfl | hentry := List.mem_cons.mp hentry
    · exact hq (locate_writeTexts.mpr hl)
    · obtain ⟨hop, hyaml, hname⟩ := mem_copiesOf hentry
      exact hcopy hop hyaml (locate_writeTexts.mpr (hname ▸ hl))

lemma AllOrNothing.of_error {fault : RunFault} (h : pureResult c t input code = .error fault)
    (hu : Untouched c t u) : AllOrNothing c input code t (.error fault) u where
  nothing _ _ := ⟨⟨fault, rfl⟩, hu⟩
  blamed other ho := by
    cases ho
    exact .inl h
  all _ ho := by cases ho

lemma AllOrNothing.of_place {fault : RunFault} (h : fault.OfPlace) (hu : Untouched c t u) :
    AllOrNothing c input code t (.error fault) u where
  nothing _ _ := ⟨⟨fault, rfl⟩, hu⟩
  blamed other ho := by
    cases ho
    exact .inr h
  all _ ho := by cases ho

/-- Where there is a result, nothing but the writing is left to fail. -/
lemma AllOrNothing.of_written (hop : Operation.ofCode? code = some op)
    (hresult : pureResult c t input code = .ok text)
    (hname : outputName input c.outputDir op = .ok output) (hu : Untouched c t u) :
    AllOrNothing c input code t
      ((written u ((output, text) :: copiesOf c document output op)).1.map fun _ => output)
      (written u ((output, text) :: copiesOf c document output op)).2 := by
  simp only [written]
  cases htexts : (writeTexts u ((output, text) :: copiesOf c document output op)).1 with
  | error fault =>
    refine ⟨fun _ h => ?_, fun other ho => ?_, fun _ h => (by cases h)⟩
    · rw [hresult] at h
      cases h
    · cases ho
      exact .inr trivial
  | ok _ =>
    refine ⟨fun _ h => ?_, fun _ h => (by cases h), fun other ho => ?_⟩
    · rw [hresult] at h
      cases h
    · cases ho
      exact ⟨op, text, hop, hresult, wrote_of_writeTexts hname htexts hu.files⟩

lemma pureResult_of_document (hop : Operation.ofCode? code = some op)
    (hdocument : documentOf t input = .ok document) :
    pureResult c t input code = (resultOf c document op).mapError .conversion := by
  simp only [pureResult, hop, hdocument]

lemma RunEnd.allOrNothing {out : Except RunFault String × Store} (h : RunEnd c input op t out)
    (hop : Operation.ofCode? code = some op) : AllOrNothing c input code t out.1 out.2 := by
  have hplaced := untouched_prepared c t
  cases h with
  | @unread fault h =>
    have hresult : pureResult c t input code = .error fault := by simp only [pureResult, hop, h]
    exact .of_error hresult (.refl c t)
  | unplaced _ h =>
    rw [h] at hplaced
    exact .of_place (ofPlace_of_prepared (congrArg Prod.fst h)) hplaced
  | unmade hdocument hplace h =>
    rw [hplace] at hplaced
    have hresult := pureResult_of_document (c := c) hop hdocument
    rw [h] at hresult
    exact .of_error hresult hplaced
  | made hdocument hplace hname h =>
    rw [hplace] at hplaced
    have hresult := pureResult_of_document (c := c) hop hdocument
    rw [h] at hresult
    exact .of_written hop hresult hname hplaced

/-- Every run is all or nothing, from every state of the files. -/
theorem all_or_nothing (c : Config) (input code : String) (s : Session) :
    AllOrNothing c input code s.files ((runOperation c input code).run s).1
      ((runOperation c input code).run s).2.files := by
  obtain ⟨hr, hu⟩ := Prod.mk.inj (ends_runOperation c input code s.files s rfl)
  rw [hr, hu]
  cases hop : Operation.ofCode? code with
  | some op => exact (outcome_cases c input op s.files).allOrNothing hop
  | none =>
    have hresult : pureResult c s.files input code = .error (.unknownOperation code) := by
      simp only [pureResult, hop]
    exact .of_error hresult (.refl c s.files)

end
end SchemaLoom
