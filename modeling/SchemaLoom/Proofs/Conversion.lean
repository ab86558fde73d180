import SchemaLoom.Conversion
import SchemaLoom.Proofs.Files.Store
import SchemaLoom.Proofs.JsonSchema.Soundness

/-! Runs and files: what a run answers and which files it leaves, apart from all that it says. A run
writes all of its result or nothing. -/
namespace SchemaLoom
open Files (Store Place AccessFault)
open Profile (Source ElementProfile ObjectProfile ConversionError)

section
variable {α β ε : Type}

/-- What an activity comes to on files: its answer and the files that it leaves, whatever has been
said before. -/
def Act.Ends (m : Act ε α) (t : Store) (out : Except ε α × Store) : Prop :=
  ∀ s : Session, s.files = t → ((m.run s).1, (m.run s).2.files) = out

namespace Act.Ends
variable {m : Act ε α} {f : α → Act ε β} {t u : Store} {a : α} {e : ε} {out : Except ε β × Store}

lemma pure (a : α) (t : Store) : Ends (pure a : Act ε α) t (.ok a, t) :=
  fun _ hs => congrArg (Prod.mk (Except.ok a)) hs

lemma throw (e : ε) (t : Store) : Ends (throw e : Act ε α) t (.error e, t) :=
  fun _ hs => congrArg (Prod.mk (Except.error e)) hs

lemma bind (hm : m.Ends t (.ok a, u)) (hf : (f a).Ends u out) : (m >>= f).Ends t out := by
  intro s hs
  obtain ⟨hr, hu⟩ := Prod.mk.inj (hm s hs)
  have hstep : (m >>= f).run s = (f a).run (m.run s).2 := by
    change ExceptT.bindCont f (m.run s).1 (m.run s).2 = _
    rw [hr]
    rfl
  rw [hstep]
  exact hf _ hu

lemma bind_error (hm : m.Ends t (.error e, u)) : (m >>= f).Ends t (.error e, u) := by
  intro s hs
  obtain ⟨hr, hu⟩ := Prod.mk.inj (hm s hs)
  have hstep : (m >>= f).run s = (.error e, (m.run s).2) := by
    change ExceptT.bindCont f (m.run s).1 (m.run s).2 = _
    rw [hr]
    rfl
  rw [hstep, hu]

lemma map {g : α → β} (h : m.Ends t (.ok a, u)) : (g <$> m).Ends t (.ok (g a), u) := by
  rw [map_eq_pure_bind]
  exact h.bind (.pure (g a) u)

lemma map_error {g : α → β} (h : m.Ends t (.error e, u)) : (g <$> m).Ends t (.error e, u) := by
  rw [map_eq_pure_bind]
  exact h.bind_error

lemma returning {m : Act ε Unit} {out : Except ε Unit × Store} (h : m.Ends t out) (b : β) :
    (m >>= fun _ => Pure.pure b).Ends t (out.1.map fun _ => b, out.2) := by
  obtain ⟨r, v⟩ := out
  cases r with
  | error fault => exact h.bind_error
  | ok _ => exact h.bind (.pure b v)

lemma skip {m : Act ε Unit} {k : Unit → Act ε β} {b : Bool} (hm : m.Ends t (.ok (), t))
    (hk : (k ()).Ends t out) : (if b then m >>= k else k ()).Ends t out := by
  cases b with
  | false => exact hk
  | true => exact hm.bind hk

lemma get_bind {g : Session → Act ε β} (h : ∀ s, s.files = t → (g s).Ends t out) :
    ((get : Act ε Session) >>= g).Ends t out :=
  fun s hs => h s hs s hs

lemma set (s : Session) (t : Store) : Ends (set s : Act ε Unit) t (.ok (), s.files) :=
  fun _ _ => rfl

lemma setLevel (level : Profile.Level) (t : Store) :
    Ends (modify fun s => { s with level } : Act ε Unit) t (.ok (), t) :=
  fun _ hs => congrArg (Prod.mk (Except.ok ())) hs

lemma setFiles (t u : Store) :
    Ends (modify fun s => { s with files := u } : Act ε Unit) t (.ok (), u) :=
  fun _ _ => rfl

lemma say (text : String) (t : Store) : Ends (say text : Act ε Unit) t (.ok (), t) :=
  fun _ hs => congrArg (Prod.mk (Except.ok ())) hs

lemma sayLine (line : String) (t : Store) : Ends (sayLine line : Act ε Unit) t (.ok (), t) :=
  say _ t

lemma forM {f : β → Act ε Unit} (h : ∀ b, (f b).Ends t (.ok (), t)) (bs : List β) :
    (bs.forM f).Ends t (.ok (), t) := by
  induction bs with
  | nil => exact pure () t
  | cons b bs ih => exact (h b).bind ih

lemma sayLines (lines : List String) (t : Store) :
    Ends (lines.forM Act.sayLine : Act ε Unit) t (.ok (), t) :=
  forM (fun line => sayLine line t) lines

lemma note (notices : List Profile.Notice) (t : Store) :
    Ends (note notices : Act ε Unit) t (.ok (), t) :=
  fun _ hs => congrArg (Prod.mk (Except.ok ())) hs

lemma ofExcept {γ : Type} (g : γ → ε) (x : Except γ α) (t : Store) :
    Ends (ofExcept g x) t (x.mapError g, t) := by
  cases x with
  | error c => exact throw _ t
  | ok a => exact pure a t

lemma readFile (name : String) (t : Store) :
    Ends (readFile name) t ((t.read name).mapError .access, t) := by
  apply get_bind
  intro s hs
  rw [hs]
  exact ofExcept _ _ t

lemma writeFile {name text : String} (h : t.write name text.toUTF8.toList = .ok u) :
    Ends (writeFile name text) t (.ok (), u) := by
  apply get_bind
  intro s hs
  rw [hs, h]
  exact (ofExcept _ (.ok u) t).bind (setFiles t u)

lemma writeFile_error {name text : String} {fault : AccessFault}
    (h : t.write name text.toUTF8.toList = .error fault) :
    Ends (Act.writeFile name text) t (.error (.access fault), t) := by
  apply get_bind
  intro s hs
  rw [hs, h]
  exact (ofExcept _ (.error fault) t).bind_error

lemma makeDirectories (name : String) (t : Store) :
    Ends (makeDirectories name) t
      ((t.makeDirectories name).1.mapError .access, (t.makeDirectories name).2) := by
  apply get_bind
  intro s hs
  rw [hs]
  exact (setFiles t _).bind (ofExcept _ _ _)

end Act.Ends
end

/-- The text that an operation makes of a document. -/
def resultOf (c : Config) (document : Xml.Node) : Operation → Except ConversionError String
  | .xsd => Xsd.convert (.standard c.mode c.shareAcrossNames) document
  | .xmlSample => Sample.convert document
  | .jsonSchema => (JsonSchema.convert c.draft document).map Json.Value.pretty
  | .jsonSample => (Sample.jsonOf document).map Json.Value.pretty

/-- The copy of a result in YAML, with its name, where there is one. -/
def copiesOf (c : Config) (document : Xml.Node) (output : String) :
    Operation → List (String × String)
  | .jsonSchema => if c.writeYaml then
      ((JsonSchema.convert c.draft document).toOption.map fun schema =>
        (yamlName output, Yaml.write schema)).toList
    else []
  | _ => []

/-- Writes texts one after another, each with its name, as far as that goes. -/
def writeTexts (t : Store) : List (String × String) → Except AccessFault Unit × Store
  | [] => (.ok (), t)
  | (name, text) :: rest =>
    match t.write name text.toUTF8.toList with
    | .ok u => writeTexts u rest
    | .error fault => (.error fault, t)

/-- What comes of writing texts. -/
def written (t : Store) (texts : List (String × String)) : Except RunFault Unit × Store :=
  ((writeTexts t texts).1.mapError .access, (writeTexts t texts).2)

/-- What comes of writing the result of an operation and its copy. -/
def delivered (c : Config) (document : Xml.Node) (output : String) (op : Operation) (t : Store) :
    Except RunFault Unit × Store :=
  match resultOf c document op with
  | .error e => (.error (.conversion e), t)
  | .ok text => written t ((output, text) :: copiesOf c document output op)

section
variable {c : Config} {document : Xml.Node} {output text : String} {t : Store}
  {k : Unit → Act RunFault Unit} {texts : List (String × String)}

lemma ends_writeFile (hk : ∀ u, t.write output text.toUTF8.toList = .ok u →
    (k ()).Ends u (written u texts)) :
    (Act.writeFile output text >>= k).Ends t (written t ((output, text) :: texts)) := by
  cases h : t.write output text.toUTF8.toList with
  | error fault =>
    have hout : written t ((output, text) :: texts) = (.error (.access fault), t) := by
      simp only [written, writeTexts, h]
      rfl
    rw [hout]
    exact (Act.Ends.writeFile_error h).bind_error
  | ok u =>
    have hout : written t ((output, text) :: texts) = written u texts := by
      simp only [written, writeTexts, h]
    rw [hout]
    exact (Act.Ends.writeFile h).bind (hk u h)

lemma delivered_error {op : Operation} {e : ConversionError}
    (h : resultOf c document op = .error e) :
    delivered c document output op t = (.error (.conversion e), t) := by
  simp [delivered, h]

lemma delivered_ok {op : Operation} (h : resultOf c document op = .ok text) :
    delivered c document output op t =
      written t ((output, text) :: copiesOf c document output op) := by
  simp [delivered, h]

lemma ends_writeXsd (c : Config) (document : Xml.Node) (output : String) (t : Store) :
    (writeXsd c document output).Ends t (delivered c document output .xsd t) := by
  unfold writeXsd
  apply Act.Ends.bind (.sayLine _ t)
  cases hsource : Source.ofDocument document with
  | error fault =>
    rw [delivered_error (e := .malformed fault)
      (by simp [resultOf, Xsd.convert, ElementProfile.ofDocument, hsource, Except.map])]
    exact .bind_error (.ofExcept _ (.error fault) t)
  | ok source =>
    apply Act.Ends.bind (.ofExcept _ (.ok source) t)
    have hresult : resultOf c document .xsd =
        (Xsd.run (.standard c.mode c.shareAcrossNames) source.profile).1.map Xsd.Schema.text := by
      simp [resultOf, Xsd.convert, Xsd.compile, ElementProfile.ofDocument, hsource, Except.map]
    split
    rename_i result context hrun
    rw [hrun] at hresult
    apply Act.Ends.bind (.note _ t)
    cases result with
    | error e =>
      rw [delivered_error hresult]
      exact .bind_error (.ofExcept _ (.error e) t)
    | ok schema =>
      rw [delivered_ok hresult]
      apply Act.Ends.bind (.ofExcept _ (.ok schema) t)
      apply Act.Ends.bind (.sayLine _ t)
      apply Act.Ends.bind (.sayLine _ t)
      apply Act.Ends.bind (.sayLine _ t)
      apply ends_writeFile
      intro u hu
      apply Act.Ends.bind (.sayLine _ u)
      obtain ⟨p, hp⟩ := Files.Store.puts_of_write hu
      cases c.validateOutput with
      | false => exact .pure () u
      | true =>
        have hread := Act.Ends.readFile output u
        rw [hp.read] at hread
        exact hread.bind (.sayLines _ u)

lemma ends_writeXmlSample (c : Config) (document : Xml.Node) (output : String) (t : Store) :
    (writeXmlSample document output).Ends t (delivered c document output .xmlSample t) := by
  unfold writeXmlSample
  cases hsource : Source.ofDocument document with
  | error fault =>
    rw [delivered_error (e := .malformed fault)
      (by simp [resultOf, Sample.convert, ElementProfile.ofDocument, hsource, Except.map])]
    exact .bind_error (.ofExcept _ (.error fault) t)
  | ok source =>
    apply Act.Ends.bind (.ofExcept _ (.ok source) t)
    have hresult : resultOf c document .xmlSample =
        (Sample.run source.profile).1.map Xml.Node.document := by
      simp [resultOf, Sample.convert, ElementProfile.ofDocument, hsource, Except.map]
    split
    rename_i result events hrun
    rw [hrun] at hresult
    apply Act.Ends.bind (.note _ t)
    cases result with
    | error e =>
      rw [delivered_error hresult]
      exact .bind_error (.ofExcept _ (.error e) t)
    | ok sample =>
      rw [delivered_ok hresult]
      apply Act.Ends.bind (.ofExcept _ (.ok sample) t)
      apply ends_writeFile
      intro u _
      exact .sayLine _ u

lemma ends_writeJson {v : Json.Value} (hk : ∀ u, u.read output = .ok v.pretty.toUTF8.toList →
    (k ()).Ends u (written u texts)) :
    (writeJson v output >>= k).Ends t (written t ((output, v.pretty) :: texts)) := by
  unfold writeJson
  rw [bind_assoc]
  apply ends_writeFile
  intro u hu
  obtain ⟨p, hp⟩ := Files.Store.puts_of_write hu
  exact (Act.Ends.sayLine _ u).bind (hk u hp.read)

/-- A schema that was written is read again without a fault. -/
lemma ends_checkWritten {d : JsonSchema.Draft} {profile : Option ObjectProfile}
    (h : t.read output = .ok (JsonSchema.schemaOf d profile).pretty.toUTF8.toList) :
    (checkWritten output).Ends t (.ok (), t) := by
  unfold checkWritten
  have hread := Act.Ends.readFile output t
  rw [h] at hread
  apply hread.bind
  obtain ⟨found, hfound, -⟩ := JsonSchema.checkOctets_schemaOf d profile
  have hcheck := Act.Ends.ofExcept RunFault.reading
    (JsonSchema.checkOctets (JsonSchema.schemaOf d profile).pretty.toUTF8.toList) t
  rw [hfound] at hcheck
  rw [hfound]
  exact hcheck.bind (.sayLines _ t)

lemma ends_writeJsonSample (c : Config) (document : Xml.Node) (output : String) (t : Store) :
    (writeJsonSample document output).Ends t (delivered c document output .jsonSample t) := by
  unfold writeJsonSample
  have hresult : resultOf c document .jsonSample =
      (Sample.jsonOf document).map Json.Value.pretty := rfl
  cases hsample : Sample.jsonOf document with
  | error e =>
    rw [hsample] at hresult
    rw [delivered_error hresult]
    exact .bind_error (.ofExcept _ (.error e) t)
  | ok sample =>
    rw [hsample] at hresult
    rw [delivered_ok hresult]
    apply Act.Ends.bind (.ofExcept _ (.ok sample) t)
    apply ends_writeFile
    intro u _
    exact .sayLine _ u

lemma ends_writeJsonSchema (c : Config) (document : Xml.Node) (output : String) (t : Store) :
    (writeJsonSchema c document output).Ends t (delivered c document output .jsonSchema t) := by
  unfold writeJsonSchema
  apply Act.Ends.bind (.sayLine _ t)
  apply Act.Ends.bind (.sayLine _ t)
  apply Act.Ends.bind (.sayLine _ t)
  have hresult : resultOf c document .jsonSchema =
      (JsonSchema.convert c.draft document).map Json.Value.pretty := rfl
  cases hprofile : ObjectProfile.ofDocument document with
  | error fault =>
    have hschema : JsonSchema.convert c.draft document = .error (.malformed fault) := by
      simp [JsonSchema.convert, hprofile]
    rw [hschema] at hresult
    rw [delivered_error hresult]
    exact .bind_error (.ofExcept _ (.error fault) t)
  | ok profile =>
    have hschema : JsonSchema.convert c.draft document =
        .ok (JsonSchema.schemaOf c.draft profile) := by
      simp [JsonSchema.convert, hprofile]
    rw [hschema] at hresult
    rw [delivered_ok hresult]
    apply Act.Ends.bind (.ofExcept _ (.ok profile) t)
    apply Act.Ends.skip (.note _ t)
    apply ends_writeJson
    intro u hu
    apply Act.Ends.skip (ends_checkWritten hu)
    unfold copiesOf
    rw [hschema]
    cases c.writeYaml with
    | false => exact .pure () u
    | true =>
      apply ends_writeFile
      intro v _
      exact .sayLine _ v

end

/-- The document in an input file. -/
def documentOf (t : Store) (input : String) : Except RunFault Xml.Node :=
  match t.read input with
  | .error fault => .error (.access fault)
  | .ok octets =>
    match Xml.ofOctets? octets with
    | some document => .ok document
    | none => .error .noDocument

/-- What comes of making the directory that is chosen. -/
def prepared (c : Config) (t : Store) : Except RunFault Unit × Store :=
  match chosenDirectory c.outputDir with
  | .error d => (.error (.directory d), t)
  | .ok none => (.ok (), t)
  | .ok (some name) => ((t.makeDirectories name).1.mapError .access, (t.makeDirectories name).2)

/-- What comes of a run: the document is read, its place is prepared, and then its result is
written. -/
def outcome (c : Config) (input : String) (op : Operation) (t : Store) :
    Except RunFault String × Store :=
  match documentOf t input with
  | .error fault => (.error fault, t)
  | .ok document =>
    match outputName input c.outputDir op with
    | .error d => (.error (.directory d), t)
    | .ok output =>
      match prepared c t with
      | (.error fault, u) => (.error fault, u)
      | (.ok _, u) =>
        ((delivered c document output op u).1.map fun _ => output,
          (delivered c document output op u).2)

section
variable {c : Config} {input output text : String} {op : Operation} {t u : Store}
  {document : Xml.Node}

/-- A place can be prepared just where the name of the result is known. -/
lemma outputName_of_prepared (h : (prepared c t).1 = .ok ()) (input : String) (op : Operation) :
    ∃ output, outputName input c.outputDir op = .ok output := by
  unfold prepared at h
  unfold outputName
  cases hchosen : chosenDirectory c.outputDir with
  | error d =>
    rw [hchosen] at h
    cases h
  | ok directory => exact ⟨_, rfl⟩

lemma prepared_error {fault : RunFault} (h : (prepared c t).1 = .error fault) :
    (∃ d, chosenDirectory c.outputDir = .error d ∧ fault = .directory d) ∨
      ∃ f, fault = .access f := by
  unfold prepared at h
  split at h
  · rename_i d hchosen
    cases h
    exact .inl ⟨d, hchosen, rfl⟩
  · cases h
  · rename_i name hchosen
    cases hmade : (t.makeDirectories name).1 with
    | error f =>
      rw [hmade] at h
      cases h
      exact .inr ⟨f, rfl⟩
    | ok _ =>
      rw [hmade] at h
      cases h

lemma written_error {texts : List (String × String)} {fault : RunFault}
    (h : (written t texts).1 = .error fault) : ∃ f, fault = .access f := by
  unfold written at h
  cases htexts : (writeTexts t texts).1 with
  | error f =>
    rw [htexts] at h
    cases h
    exact ⟨f, rfl⟩
  | ok _ =>
    rw [htexts] at h
    cases h

/-- Without a result, a place is prepared for nothing. -/
lemma outcome_of_error {e : ConversionError} (hdocument : documentOf t input = .ok document)
    (hplace : prepared c t = (.ok (), u)) (h : resultOf c document op = .error e) :
    outcome c input op t = (.error (.conversion e), u) := by
  obtain ⟨output, hname⟩ := outputName_of_prepared (congrArg Prod.fst hplace) input op
  simp only [outcome, hdocument, hname, hplace, delivered, h]
  rfl

/-- A result is written to the place that is prepared. -/
lemma outcome_of_ok (hdocument : documentOf t input = .ok document)
    (hplace : prepared c t = (.ok (), u)) (hname : outputName input c.outputDir op = .ok output)
    (h : resultOf c document op = .ok text) :
    outcome c input op t =
      ((written u ((output, text) :: copiesOf c document output op)).1.map fun _ => output,
        (written u ((output, text) :: copiesOf c document output op)).2) := by
  simp only [outcome, hdocument, hname, hplace, delivered, h]

/-- The ways in which a run ends, each with its answer and the files that it leaves. -/
inductive RunEnd (c : Config) (input : String) (op : Operation) (t : Store) :
    Except RunFault String × Store → Prop
  | unread {fault : RunFault} (h : documentOf t input = .error fault) :
    RunEnd c input op t (.error fault, t)
  | unplaced {document : Xml.Node} {fault : RunFault} {u : Store}
    (hdocument : documentOf t input = .ok document) (h : prepared c t = (.error fault, u)) :
    RunEnd c input op t (.error fault, u)
  | unmade {document : Xml.Node} {u : Store} {e : ConversionError}
    (hdocument : documentOf t input = .ok document) (hplace : prepared c t = (.ok (), u))
    (h : resultOf c document op = .error e) : RunEnd c input op t (.error (.conversion e), u)
  | made {document : Xml.Node} {u : Store} {output text : String}
    (hdocument : documentOf t input = .ok document) (hplace : prepared c t = (.ok (), u))
    (hname : outputName input c.outputDir op = .ok output) (h : resultOf c document op = .ok text) :
    RunEnd c input op t
      ((written u ((output, text) :: copiesOf c document output op)).1.map fun _ => output,
        (written u ((output, text) :: copiesOf c document output op)).2)

/-- A run whose place cannot be prepared fails just as preparing it does. -/
lemma outcome_of_unplaced {fault : RunFault} (hdocument : documentOf t input = .ok document)
    (h : prepared c t = (.error fault, u)) : outcome c input op t = (.error fault, u) := by
  cases hchosen : chosenDirectory c.outputDir with
  | error d =>
    simp only [prepared, hchosen, Prod.mk.injEq, Except.error.injEq] at h
    obtain ⟨rfl, rfl⟩ := h
    simp only [outcome, hdocument, outputName, hchosen]
    rfl
  | ok directory =>
    simp only [outcome, hdocument, outputName, hchosen, h]
    rfl

theorem outcome_cases (c : Config) (input : String) (op : Operation) (t : Store) :
    RunEnd c input op t (outcome c input op t) := by
  cases hdocument : documentOf t input with
  | error fault =>
    simp only [outcome, hdocument]
    exact .unread hdocument
  | ok document =>
    obtain ⟨⟨placed, u⟩, hplace⟩ : ∃ out, prepared c t = out := ⟨_, rfl⟩
    cases placed with
    | error fault =>
      rw [outcome_of_unplaced hdocument hplace]
      exact .unplaced hdocument hplace
    | ok _ =>
      cases hresult : resultOf c document op with
      | error e =>
        rw [outcome_of_error hdocument hplace hresult]
        exact .unmade hdocument hplace hresult
      | ok text =>
        obtain ⟨output, hname⟩ := outputName_of_prepared (congrArg Prod.fst hplace) input op
        rw [outcome_of_ok hdocument hplace hname hresult]
        exact .made hdocument hplace hname hresult

end

section
variable {c : Config} {input code : String} {op : Operation} {t u : Store}

lemma ends_writeResult (c : Config) (document : Xml.Node) (output : String) (op : Operation)
    (t : Store) : (writeResult c document output op).Ends t (delivered c document output op t) := by
  cases op with
  | xsd => exact ends_writeXsd c document output t
  | xmlSample => exact ends_writeXmlSample c document output t
  | jsonSchema => exact ends_writeJsonSchema c document output t
  | jsonSample => exact ends_writeJsonSample c document output t

theorem ends_convertFile (c : Config) (input : String) (op : Operation) (t : Store) :
    (convertFile c input op).Ends t (outcome c input op t) := by
  unfold convertFile
  apply Act.Ends.bind (.sayLine _ t)
  apply Act.Ends.bind (.sayLine _ t)
  apply Act.Ends.bind (.sayLine _ t)
  apply Act.Ends.bind (.sayLine _ t)
  have hread := Act.Ends.readFile input t
  unfold outcome documentOf
  cases hinput : t.read input with
  | error fault =>
    rw [hinput] at hread
    exact hread.bind_error
  | ok octets =>
    rw [hinput] at hread
    apply hread.bind
    cases hparsed : Xml.ofOctets? octets with
    | none =>
      simp only [hparsed]
      exact .bind_error (.throw _ t)
    | some document =>
      simp only [hparsed]
      apply Act.Ends.bind (.pure document t)
      cases houtput : outputName input c.outputDir op with
      | error d =>
        exact .bind_error (.ofExcept _ (.error d) t)
      | ok output =>
        apply Act.Ends.bind (.ofExcept _ (.ok output) t)
        unfold prepared
        cases hchosen : chosenDirectory c.outputDir with
        | error d => exact .bind_error (.ofExcept _ (.error d) t)
        | ok directory =>
          apply Act.Ends.bind (.ofExcept _ (.ok directory) t)
          cases directory with
          | none => exact (ends_writeResult c document output op t).returning output
          | some name =>
            have hmade := Act.Ends.makeDirectories name t
            cases hr : (t.makeDirectories name).1 with
            | error fault =>
              rw [hr] at hmade
              simp only [hr]
              exact hmade.bind_error
            | ok _ =>
              rw [hr] at hmade
              simp only [hr]
              exact hmade.bind ((ends_writeResult c document output op _).returning output)

theorem ends_runOperation (c : Config) (input code : String) (t : Store) :
    (runOperation c input code).Ends t (match Operation.ofCode? code with
      | some op => outcome c input op t
      | none => (.error (.unknownOperation code), t)) := by
  unfold runOperation
  cases Operation.ofCode? code with
  | none => exact .throw _ t
  | some op => exact ends_convertFile c input op t

end
end SchemaLoom
