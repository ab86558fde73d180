import SchemaLoom.CommandLine
import SchemaLoom.Proofs.Conversion
import SchemaLoom.Proofs.Traversal
import SchemaLoom.Yaml.Meaning

/-! The end of a run of the program: which exit code it has, and what ends it without one. -/
namespace SchemaLoom
open Files (Store)

/-- What an invocation comes to before any operation is run. -/
inductive Request where
  /-- There are no arguments. -/
  | usage
  | config (fault : ConfigFault)
  /-- The input is missing or no profile. -/
  | noProfile
  /-- The menu is shown, and no line of the input answers it. -/
  | unanswered
  | unknown
  | run (c : Config) (input : String) (op : Operation)

/-- The operation that is asked for by name, or by the first answer that the menu takes. -/
def Invocation.choice (i : Invocation) (c : Config) (input : String) : Option String → Request
  | some code =>
    match Operation.ofCode? (Text.lower code) with
    | some op => .run c input op
    | none => .unknown
  | none =>
    match (Text.linesOf i.input).findSome? answered? with
    | some op => .run c input op
    | none => .unanswered

def Invocation.request (loader : Yaml.Loader) (i : Invocation) (t : Store) : Request :=
  match i.arguments with
  | [] => .usage
  | input :: others =>
    match Config.load loader t others[1]? with
    | .error fault => .config fault
    | .ok c =>
      if t.holdsFile input && isProfileFile t input then i.choice c input others.head?
      else .noProfile

/-- The exit codes as they are documented: 2 for the usage and for a bad configuration, 3 without a
profile, 4 for an unknown operation, and 5 for a conversion that fails. -/
def Request.exitCode (t : Store) : Request → Nat
  | .usage => 2
  | .config _ => 2
  | .noProfile => 3
  | .unanswered => 4
  | .unknown => 4
  | .run c input op => if (outcome c input op t).1.isOk then 0 else 5

/-- What a run ends with once it is told. -/
def concluded : Except RunFault String → Except Escape Nat
  | .ok _ => .ok 0
  | .error fault => if isTold fault then .ok 5 else .error (.run fault)

/-- What a request ends with. -/
def Request.result (host : Host) (t : Store) : Request → Except Escape Nat
  | .usage => .ok 2
  | .config (.invalid e) => if e.isShown then .ok 2 else .error (.unshown e)
  | .config fault => .error (.config fault)
  | .noProfile => .ok 3
  | .unanswered => .error .endOfInput
  | .unknown => .ok 4
  | .run c input op =>
    if (host.exhausted c input op t).isSome then .error .exhausted
    else concluded (outcome c input op t).1

/-- The files that a request leaves. -/
def Request.files (host : Host) (t : Store) : Request → Store
  | .run c input op => (host.exhausted c input op t).getD (outcome c input op t).2
  | _ => t

lemma ofCode_code (op : Operation) : Operation.ofCode? op.code = some op := by
  cases op <;> decide

lemma ends_ask (lines : List String) (t : Store) : (ask lines).Ends t
    (match lines.findSome? answered? with
      | some op => .ok op
      | none => .error .endOfInput, t) := by
  induction lines with
  | nil => exact (Act.Ends.say _ t).bind (.throw _ t)
  | cons line rest ih =>
    unfold ask
    apply Act.Ends.bind (.say _ t)
    rw [List.findSome?_cons]
    cases answered? line with
    | some op => exact .pure op t
    | none => exact (Act.Ends.sayLine _ t).bind ih

lemma ends_chooseOperation (lines : List String) (t : Store) : (chooseOperation lines).Ends t
    (match lines.findSome? answered? with
      | some op => .ok op
      | none => .error .endOfInput, t) := by
  unfold chooseOperation
  apply Act.Ends.bind (.sayLine _ t)
  apply Act.Ends.bind (.forM (fun _ => .sayLine _ t) _)
  apply Act.Ends.bind (.sayLine _ t)
  exact ends_ask lines t

lemma ends_conclude (i : Invocation) (r : Except RunFault String) (t : Store) :
    (conclude i r).Ends t (concluded r, t) := by
  unfold conclude concluded
  cases r with
  | ok output => exact (Act.Ends.sayLine _ t).bind (.pure 0 t)
  | error fault =>
    simp only
    split
    · exact (Act.Ends.sayLine _ t).bind (.pure 5 t)
    · exact .throw _ t

lemma ends_refuseConfig (e : ConfigError) (t : Store) :
    (refuseConfig e).Ends t (if e.isShown then .ok 2 else .error (.unshown e), t) := by
  unfold refuseConfig
  split
  · exact (Act.Ends.sayLine _ t).bind (.pure 2 t)
  · exact .throw _ t

lemma ends_runCode (host : Host) (i : Invocation) (c : Config) (input code : String) (t : Store) :
    (runCode host i c input code).Ends t (match Operation.ofCode? code with
      | some op =>
        ((Request.run c input op).result host t, (Request.run c input op).files host t)
      | none => (.ok 4, t)) := by
  unfold runCode
  cases hop : Operation.ofCode? code with
  | none => exact (Act.Ends.sayLine _ t).bind (.pure 4 t)
  | some op =>
    apply Act.Ends.get_bind
    intro s hs
    simp only [Request.result, Request.files, hs]
    cases hroom : host.exhausted c input op t with
    | some files => exact (Act.Ends.set _ t).bind (.throw _ files)
    | none =>
      have hrun :
          (((runOperation c input code).run s).1, ((runOperation c input code).run s).2.files) =
            outcome c input op t := by
        rw [ends_runOperation c input code t s hs, hop]
      simp only [← hrun]
      exact (Act.Ends.set _ t).bind (ends_conclude i _ _)

lemma ends_chosen (host : Host) (i : Invocation) (c : Config) (input : String)
    (code : Option String) (t : Store) :
    Act.Ends (do
      let code ← match code with
        | some code => pure (Text.lower code)
        | none => (·.code) <$> chooseOperation (Text.linesOf i.input)
      runCode host i c input code) t
      ((i.choice c input code).result host t, (i.choice c input code).files host t) := by
  unfold Invocation.choice
  cases code with
  | some code =>
    apply Act.Ends.bind (.pure (Text.lower code) t)
    have hrun := ends_runCode host i c input (Text.lower code) t
    cases hop : Operation.ofCode? (Text.lower code) with
    | none =>
      simp only [hop] at hrun ⊢
      exact hrun
    | some op =>
      simp only [hop] at hrun ⊢
      exact hrun
  | none =>
    have hchoice := ends_chooseOperation (Text.linesOf i.input) t
    cases hline : (Text.linesOf i.input).findSome? answered? with
    | none =>
      rw [hline] at hchoice
      exact hchoice.map_error.bind_error
    | some op =>
      rw [hline] at hchoice
      have hrun := ends_runCode host i c input op.code t
      rw [ofCode_code] at hrun
      exact hchoice.map.bind hrun

/-- The program ends as its request says, from every state of the files. -/
theorem ends_runProgram (host : Host) (i : Invocation) (t : Store) :
    (runProgram host i).Ends t
      ((i.request host.loader t).result host t, (i.request host.loader t).files host t) := by
  unfold runProgram Invocation.request
  cases i.arguments with
  | nil => exact (Act.Ends.sayLine _ t).bind (.pure 2 t)
  | cons input others =>
    apply Act.Ends.get_bind
    intro s hs
    rw [hs]
    cases hload : Config.load host.loader t others[1]? with
    | error fault =>
      simp only [hload]
      cases fault with
      | invalid e => exact ends_refuseConfig e t
      | _ => exact .throw _ t
    | ok c =>
      simp only [hload]
      apply Act.Ends.bind (.setLevel _ t)
      apply Act.Ends.get_bind
      intro s hs
      rw [hs]
      cases hfile : t.holdsFile input with
      | false =>
        simp only [hfile]
        exact (Act.Ends.sayLine _ t).bind (.pure 3 t)
      | true =>
        cases hprofile : isProfileFile t input with
        | false =>
          simp only [hfile, hprofile]
          exact (Act.Ends.sayLine _ t).bind (.pure 3 t)
        | true =>
          simp only [hfile, hprofile]
          exact ends_chosen host i c input others.head? t

/-- What an invocation can come to. The menu is shown, and an operation is run, on profiles only. -/
inductive RequestCase (loader : Yaml.Loader) (i : Invocation) (t : Store) : Request → Prop
  | usage : RequestCase loader i t .usage
  | config {fault : ConfigFault} : RequestCase loader i t (.config fault)
  | noProfile : RequestCase loader i t .noProfile
  | unanswered {input : String} {c : Config} (harguments : i.arguments = [input])
    (hload : Config.load loader t none = .ok c) (hfile : t.holdsFile input = true)
    (hprofile : isProfileFile t input = true)
    (hnone : (Text.linesOf i.input).findSome? answered? = none) :
    RequestCase loader i t .unanswered
  | unknown : RequestCase loader i t .unknown
  | run {c : Config} {input : String} {op : Operation} (hprofile : isProfileFile t input = true) :
    RequestCase loader i t (.run c input op)

lemma request_cases (loader : Yaml.Loader) (i : Invocation) (t : Store) :
    RequestCase loader i t (i.request loader t) := by
  unfold Invocation.request
  split
  · exact .usage
  · rename_i input others harguments
    split
    · exact .config
    · rename_i c hload
      split
      · rename_i hinput
        obtain ⟨hfile, hprofile⟩ := Bool.and_eq_true_iff.mp hinput
        cases others with
        | nil =>
          rw [List.head?_nil, Invocation.choice]
          cases hline : (Text.linesOf i.input).findSome? answered? with
          | some op => exact .run hprofile
          | none => exact .unanswered harguments hload hfile hprofile hline
        | cons code others =>
          rw [List.head?_cons, Invocation.choice]
          cases Operation.ofCode? (Text.lower code) with
          | some op => exact .run hprofile
          | none => exact .unknown
      · exact .noProfile

/-- Wherever the menu is shown, a line of the input answers it. -/
def Invocation.Answered (loader : Yaml.Loader) (i : Invocation) (t : Store) : Prop :=
  ∀ input c, i.arguments = [input] → Config.load loader t none = .ok c →
    t.holdsFile input = true → isProfileFile t input = true →
      ∃ line ∈ Text.linesOf i.input, (answered? line).isSome = true

/-- What no handler of the program foresees: a configuration whose characters, values or keys cannot
be read, or whose fault cannot be shown; a directory that is no name; a name that no file can have;
a tree that cannot be built; a text that is to be filled up beyond all bounds; and a run that the
host has no room for. -/
inductive Invocation.Unforeseen (host : Host) (i : Invocation) (t : Store) : Prop
  | config {fault : ConfigFault} (h : i.request host.loader t = .config fault)
    (hfault : ∀ e, fault ≠ .invalid e)
  | unshown {e : ConfigError} (h : i.request host.loader t = .config (.invalid e))
    (hshown : e.isShown = false)
  | directory {c : Config} {input : String} {op : Operation} {d : StrangeDirectory}
    (h : i.request host.loader t = .run c input op)
    (hchosen : chosenDirectory c.outputDir = .error d)
  | null {c : Config} {input : String} {op : Operation} {name : String}
    (h : i.request host.loader t = .run c input op)
    (hnull : (outcome c input op t).1 = .error (.access ⟨.nullCharacter, name⟩))
  | tree {c : Config} {input : String} {op : Operation} {document : Xml.Node}
    {fault : Xml.BuildFault} (h : i.request host.loader t = .run c input op)
    (hplace : (prepared c t).1 = .ok ()) (hdocument : documentOf t input = .ok document)
    (hresult : resultOf c document op = .error (.tree fault))
  | overlong {c : Config} {input : String} {op : Operation} {document : Xml.Node}
    (h : i.request host.loader t = .run c input op) (hplace : (prepared c t).1 = .ok ())
    (hdocument : documentOf t input = .ok document)
    (hresult : resultOf c document op = .error .overlong)
  | exhausted {c : Config} {input : String} {op : Operation} {files : Store}
    (h : i.request host.loader t = .run c input op)
    (hroom : host.exhausted c input op t = some files)

section
variable {loader : Yaml.Loader} {host : Host} {i : Invocation} {t : Store} {c : Config}
  {input : String} {op : Operation} {document : Xml.Node} {fault : RunFault}

lemma concluded_error (h : isTold fault = false) :
    concluded (.error fault) = .error (.run fault) := by
  simp [concluded, h]

lemma concluded_told (h : isTold fault = true) : concluded (.error fault) = .ok 5 := by
  simp [concluded, h]

lemma isTold_access_null {f : Files.AccessFault} (h : isTold (.access f) = false) :
    ∃ name, f = ⟨.nullCharacter, name⟩ := by
  obtain ⟨reason, name⟩ := f
  simp only [isTold, bne_eq_false_iff_eq] at h
  exact ⟨name, by rw [h]⟩

lemma isProfileFile_of_request (h : i.request loader t = .run c input op) :
    isProfileFile t input = true := by
  have hcase := request_cases loader i t
  rw [h] at hcase
  cases hcase with
  | run hprofile => exact hprofile

/-- An operation is run on a document only. -/
lemma document_of_request (h : i.request loader t = .run c input op) :
    ∃ document, documentOf t input = .ok document := by
  have hprofile := isProfileFile_of_request h
  unfold isProfileFile at hprofile
  unfold documentOf
  cases hread : t.read input with
  | error f => simp [hread] at hprofile
  | ok octets =>
    cases hparsed : Xml.ofOctets? octets with
    | none => simp [hread, hparsed] at hprofile
    | some document => exact ⟨document, by simp [hparsed]⟩

/-- Where a line answers the menu, one is found. -/
lemma request_ne_unanswered (h : i.Answered loader t) : i.request loader t ≠ .unanswered := by
  intro hrequest
  have hcase := request_cases loader i t
  rw [hrequest] at hcase
  cases hcase with
  | unanswered harguments hload hfile hprofile hnone =>
    obtain ⟨line, hline, hsome⟩ := h _ _ harguments hload hfile hprofile
    rw [List.findSome?_eq_none_iff.mp hnone line hline] at hsome
    cases hsome

/-- A run that is not told fails for its directory, for a name, for its tree or for a text that is
too long. -/
lemma unforeseen_of_untold (h : i.request host.loader t = .run c input op)
    (hout : (outcome c input op t).1 = .error fault) (hfault : isTold fault = false) :
    i.Unforeseen host t := by
  have hnull {f : Files.AccessFault} (hf : fault = .access f) : i.Unforeseen host t := by
    subst hf
    obtain ⟨name, rfl⟩ := isTold_access_null hfault
    exact .null h hout
  have hend := outcome_cases c input op t
  cases hends : outcome c input op t
  rw [hends] at hend hout
  cases hend with
  | unread hunread =>
    obtain ⟨document, hdocument⟩ := document_of_request h
    rw [hdocument] at hunread
    cases hunread
  | unplaced _ hplace =>
    cases hout
    obtain ⟨d, hchosen, -⟩ | ⟨f, hf⟩ := prepared_error (congrArg Prod.fst hplace)
    · exact .directory h hchosen
    · exact hnull hf
  | @unmade document _ e hdocument hplace hresult =>
    cases hout
    cases e with
    | malformed _ => cases hfault
    | conflict _ _ => cases hfault
    | tree f => exact .tree h (congrArg Prod.fst hplace) hdocument hresult
    | overlong => exact .overlong h (congrArg Prod.fst hplace) hdocument hresult
  | @made document u output text hdocument hplace hname hresult =>
    cases hw : (written u ((output, text) :: copiesOf c document output op)).1 with
    | error f =>
      rw [hw] at hout
      cases hout
      obtain ⟨f, hf⟩ := written_error hw
      exact hnull hf
    | ok _ =>
      rw [hw] at hout
      cases hout

/-- A run that fails untold has no exit code, whatever room there is. -/
lemma escapes_of_untold (h : i.request host.loader t = .run c input op)
    (hout : (outcome c input op t).1 = .error fault) (hfault : isTold fault = false) :
    ∃ e, (i.request host.loader t).result host t = .error e := by
  rw [h, Request.result]
  split
  · exact ⟨_, rfl⟩
  · exact ⟨_, (congrArg concluded hout).trans (concluded_error hfault)⟩

/-- A conversion that fails once there is a place for its result makes the run fail with it. -/
lemma outcome_of_unmade {e : Profile.ConversionError} (hplace : (prepared c t).1 = .ok ())
    (hdocument : documentOf t input = .ok document) (hresult : resultOf c document op = .error e) :
    (outcome c input op t).1 = .error (.conversion e) := by
  rw [outcome_of_error hdocument (Prod.ext hplace rfl) hresult]

/-- Nothing unforeseen is told. -/
lemma escapes_of_unforeseen (h : i.Unforeseen host t) :
    ∃ e, (i.request host.loader t).result host t = .error e := by
  cases h with
  | @config fault h hfault =>
    rw [h]
    cases fault with
    | invalid e => exact absurd rfl (hfault e)
    | _ => exact ⟨_, rfl⟩
  | unshown h hshown =>
    rw [h]
    exact ⟨_, by rw [Request.result, hshown]; rfl⟩
  | @directory c input op d h hchosen =>
    obtain ⟨document, hdocument⟩ := document_of_request h
    have hplace : prepared c t = (.error (.directory d), t) := by
      simp only [prepared, hchosen]
    exact escapes_of_untold h (congrArg Prod.fst (outcome_of_unplaced hdocument hplace)) rfl
  | null h hnull => exact escapes_of_untold h hnull rfl
  | tree h hplace hdocument hresult =>
    exact escapes_of_untold h (outcome_of_unmade hplace hdocument hresult) rfl
  | overlong h hplace hdocument hresult =>
    exact escapes_of_untold h (outcome_of_unmade hplace hdocument hresult) rfl
  | exhausted h hroom =>
    rw [h]
    exact ⟨_, by rw [Request.result, hroom]; rfl⟩

/-- Where nothing is unforeseen, the exit code is the documented one. -/
lemma result_of_foreseen (hmenu : i.Answered host.loader t) (h : ¬i.Unforeseen host t) :
    (i.request host.loader t).result host t = .ok ((i.request host.loader t).exitCode t) := by
  cases hrequest : i.request host.loader t with
  | config fault =>
    cases fault with
    | invalid e =>
      cases hshown : e.isShown with
      | false => exact absurd (.unshown hrequest hshown) h
      | true => simp [Request.result, Request.exitCode, hshown]
    | _ => exact absurd (.config hrequest (by simp)) h
  | unanswered => exact absurd hrequest (request_ne_unanswered hmenu)
  | run c input op =>
    have hroom : host.exhausted c input op t = none :=
      Option.eq_none_iff_forall_ne_some.mpr fun files hfiles => h (.exhausted hrequest hfiles)
    cases hout : (outcome c input op t).1 with
    | ok output =>
      simp [Request.result, Request.exitCode, hroom, hout, concluded, Except.isOk, Except.toBool]
    | error fault =>
      cases hfault : isTold fault with
      | false => exact absurd (unforeseen_of_untold hrequest hout hfault) h
      | true =>
        simp [Request.result, Request.exitCode, hroom, hout, concluded_told hfault, Except.isOk,
          Except.toBool]
  | usage => rfl
  | noProfile => rfl
  | unknown => rfl

lemma exitCode_mem (t : Store) (r : Request) : r.exitCode t ∈ [0, 2, 3, 4, 5] := by
  cases r with
  | run c input op =>
    simp only [Request.exitCode]
    split <;> decide
  | _ => simp [Request.exitCode]

end

/-- An invocation that names no operation; the second line of its input answers the menu. -/
def menuCall : Invocation := ⟨"profile2schema", ["p.xml"], "x\n3\n", "/"⟩

def menuFiles : Store := ⟨[(["p.xml"], .file "<JSONProfile/>".toUTF8.toList)]⟩

/-- A host with room for every run and the YAML of this library. -/
def ampleHost : Host := .ample Yaml.ofChars

lemma answered_menuCall : menuCall.Answered ampleHost.loader menuFiles := by
  intro _ _ _ _ _ _
  exact ⟨"3", by decide +kernel, by decide +kernel⟩

/-- The sample of an element whose name has a blank in it. -/
def spacedCall : Invocation := ⟨"profile2schema", ["p.xml", "xml-sample"], "", "/"⟩

def spacedFiles : Store := ⟨[(["p.xml"], .file
  "<XMLProfile><DataElements><XMLElement name='a b'/></DataElements></XMLProfile>".toUTF8.toList)]⟩

example : ((runProgram ampleHost spacedCall).run (.start spacedFiles)).1.toOption = none ∧
    (spacedCall.request ampleHost.loader spacedFiles).exitCode spacedFiles = 5 := by
  decide +kernel

end SchemaLoom
