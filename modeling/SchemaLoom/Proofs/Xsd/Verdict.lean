import SchemaLoom.Proofs.Xsd.Drafting
import SchemaLoom.Proofs.Xsd.Upkeep

/-! What a compilation comes to is decided by digests: where they find declarations that are refused
it fails with that, and where they do not it does what a draft does. A draft fails for a name that
no document can hold, and for nothing else. -/
namespace SchemaLoom.Xsd
open Profile (Declaration Siblings Forest ConversionError ElementProfile)

/-! ## Drafts that come to their end -/

/-- A draft that never fails. -/
def Succeeds {α : Type} (p : Drafting α) : Prop := ∀ r, ∃ done, p.run r = .ok done

section
variable {s : Settings} {F : Forest} {uri : Option String} {α β : Type}

namespace Succeeds

theorem pure (a : α) : Succeeds (pure a : Drafting α) := fun r => ⟨(a, r), rfl⟩

theorem bind {p : Drafting α} {k : α → Drafting β} (hp : Succeeds p) (hk : ∀ a, Succeeds (k a)) :
    Succeeds (p >>= k) := by
  intro r
  obtain ⟨⟨a, r'⟩, hrun⟩ := hp r
  obtain ⟨done, hdone⟩ := hk a r'
  refine ⟨done, ?_⟩
  rw [StateT.run_bind, hrun]
  exact hdone

end Succeeds

lemma succeeds_legal {name : String} (h : Xml.isLegalText name) :
    Succeeds (Xml.legal name : Drafting Unit) := by
  intro r
  refine ⟨((), r), ?_⟩
  rw [Xml.legal, if_pos h]
  rfl

lemma succeeds_draftType {digest preferred : String} {body : String → Drafting TypeBody}
    (hlegal : Xml.isLegalText preferred)
    (hbody : ∀ name, Xml.isLegalText name → Succeeds (body name)) :
    Succeeds (draftType digest preferred body) := by
  intro r
  cases hfind : r.find? digest with
  | some t => exact ⟨_, draftType_of_find hfind⟩
  | none =>
    obtain ⟨⟨content, r'⟩, hcontent⟩ :=
      hbody _ (isLegalText_freeName hlegal r.usedNames) (r.allocate preferred).2
    refine ⟨((r.allocate preferred).1, r'.register ⟨(r.allocate preferred).1, digest, content⟩), ?_⟩
    rw [draftType_of_new hfind]
    change ((body (Registry.freeName r.usedNames preferred)).run (r.allocate preferred).2 >>= _) = _
    rw [hcontent]
    rfl

/-- The body of a declaration can be drafted under every name that a document can hold. -/
theorem succeeds_draftBody (hF : Spelled F) (qualified : Bool) :
    ∀ d : Declaration, F.Has d → ∀ name,
    Xml.isLegalText name → Succeeds (s.draftBody qualified d name) := by
  intro d
  induction d using Declaration.induction with
  | h f children ih =>
    intro hd name hname
    refine Settings.closed_draftBody (P := fun _ p => Succeeds p) (fun _ => .pure)
      (fun _ _ _ _ => .bind)
      (succeeds_legal hname) fun g hg => ?_
    have hfirst := hd.first hg
    have hgroup : g.first.name = g.name := Siblings.name_first hg
    have hlegal := isLegalText_typeNameBase (hgroup ▸ hF _ hfirst)
    exact succeeds_draftType hlegal (ih _ (Declaration.first_mem_children hg) hfirst)

/-- What is compiled as a draft that never fails succeeds with the result of the draft. -/
lemma Performs.succeeds {m : Compiling α} {p : Option String → Drafting α}
    (h : ∀ uri, Performs s F uri m (p uri)) (hp : ∀ uri, Succeeds (p uri)) {c : Context}
    (hc : Known s F c) :
    ∃ a c', m.run c = (.ok a, c') ∧ Known s F c' ∧ c'.uri = c.uri ∧
      (p c.uri).run c.registry = .ok (a, c'.registry) := by
  have hrun := h c.uri c hc rfl
  obtain ⟨⟨a, r⟩, hdone⟩ := hp c.uri c.registry
  rw [hdone] at hrun
  obtain ⟨c', hrun, hknown, huri, rfl⟩ := hrun
  exact ⟨a, c', hrun, hknown, huri, hdone⟩

/-! ## Types by the digests of their groups -/

/-- Where the digest of a group fails, no type is looked for. -/
lemma computes_typeFor_error {g : Siblings Subject} {e : ConversionError} (hg : g.first.Stands s F)
    (h : s.judge g.first.declaration = .error e) (preferred : String) :
    Computes (remembering s F) (typeFor g preferred) (.error e) := by
  have hdigest := hg.digest
  rw [h] at hdigest
  unfold typeFor
  exact hdigest.bind (k := fun _ => .error e) fun digest hok => by cases hok

/-- Where it does not fail, nothing that is compiled for the type is refused. -/
lemma performs_typeFor_of_judge {g : Siblings Subject} {digest : String} (hg : g.first.Stands s F)
    (h : s.judge g.first.declaration = .ok digest) (preferred : String) :
    Performs s F uri (typeFor g preferred) (draftType (s.fingerprint g.first.declaration) preferred
      (s.draftBody uri.isSome g.first.declaration)) := by
  obtain ⟨hfp, haccepts⟩ := (s.judgedRight _).ok _ h
  have hdigest := hg.digest
  rw [h, hfp] at hdigest
  refine performs_typeFor hdigest ?_
  rw [hg.eq_of, Subject.of_declaration]
  exact performs_body _ _ hg.at_path haccepts

/-! ## Verdicts on groups -/

/-- What the digests of a group come to: whether it may be merged, and whether what is in its first
declaration may be. -/
def Settings.verdictOf (s : Settings) (g : Siblings Declaration) : Except ConversionError Unit := do
  s.mergeJudged (g.map s.withJudgement)
  (s.judge g.first).map fun _ => ()

/-- What the digests of declarations come to, name by name. -/
def Settings.verdict (s : Settings) (ds : List Declaration) : Except ConversionError Unit :=
  (Siblings.byName Declaration.name ds).forM s.verdictOf

/-- Where digests are known, a step fails as a verdict says, and succeeds where the verdict is
none. -/
def Reports (s : Settings) (F : Forest) {α : Type} (m : Compiling α)
    (r : Except ConversionError Unit) : Prop :=
  ∀ c, (keeping s F fun _ => True).holds c →
    Ends (keeping s F fun _ => True) m (fun _ _ => r = .ok ()) (r = .error ·) c

namespace Reports

theorem of_computes {m : Compiling α} {r : Except ConversionError α}
    (h : Computes (remembering s F) m r) :
    Reports s F m (r.map fun _ => ()) := by
  intro c hc
  refine ((h c hc.1).mono (fun a _ _ _ ha => ?_) fun e he => ?_).change
    (fun _ hknown _ => ⟨hknown, trivial⟩) fun _ _ hmoves => hmoves.1
  · rw [ha]
    rfl
  · rw [he]
    rfl

theorem of_performs {m : Compiling α} {p : Option String → Drafting α}
    (h : ∀ uri, Performs s F uri m (p uri)) (hp : ∀ uri, Succeeds (p uri)) :
    Reports s F m (.ok ()) := by
  intro c hc
  obtain ⟨a, c', hrun, hknown, huri, -⟩ := Performs.succeeds h hp hc.1
  refine ⟨?_, ?_, fun _ _ => rfl, fun e he => ?_⟩
  · rw [hrun]
    exact ⟨hknown, trivial⟩
  · rw [hrun]
    exact huri
  · rw [hrun] at he
    cases he

theorem pure (a : α) : Reports s F (pure a : Compiling α) (.ok ()) := fun _ hc => .pure hc rfl

theorem bind {m : Compiling α} {f : α → Compiling β} {r r' : Except ConversionError Unit}
    (hm : Reports s F m r) (hf : r = .ok () → ∀ a, Reports s F (f a) r') :
    Reports s F (m >>= f) (r >>= fun _ => r') := by
  intro c hc
  cases r with
  | error e =>
    have hfail : Ends (keeping s F fun _ => True) m (fun _ _ => False)
        (fun e' => (.error e : Except ConversionError Unit) = .error e') c :=
      (hm c hc).mono (fun _ _ _ _ h => by cases h) fun _ h => h
    exact hfail.bind fun _ _ _ _ h => h.elim
  | ok u =>
    have hok : Ends (keeping s F fun _ => True) m (fun _ _ => True) (fun e => r' = .error e) c :=
      (hm c hc).mono (fun _ _ _ _ _ => trivial) fun _ h => by cases h
    exact hok.bind fun a c' hc' _ _ => hf rfl a c' hc'

/-- A step that never fails does not change the verdict. -/
theorem finish {m : Compiling α} {f : α → Compiling β} {r : Except ConversionError Unit}
    (hm : Reports s F m r) (hf : ∀ a, Reports s F (f a) (.ok ())) : Reports s F (m >>= f) r := by
  have hall := hm.bind fun _ => hf
  cases r <;> exact hall

theorem get_bind {f : Context → Compiling β} {r : Except ConversionError Unit}
    (h : ∀ c, Reports s F (f c) r) :
    Reports s F (get >>= f) r := fun c hc => .get_bind (h c c hc)

theorem mapM {γ : Type} {xs : List α} {f : α → Compiling β} {h : α → γ}
    {k : γ → Except ConversionError Unit} (hf : ∀ x ∈ xs, Reports s F (f x) (k (h x))) :
    Reports s F (xs.mapM f) ((xs.map h).forM k) := by
  induction xs with
  | nil => exact pure []
  | cons x xs ih =>
    rw [List.mapM_cons]
    refine bind (hf x (by simp)) fun _ b => ?_
    exact finish (ih fun y hy => hf y (by simp [hy])) fun bs => pure (b :: bs)

end Reports

lemma reports_typeFor (hF : Spelled F) {g : Siblings Subject} (hg : g.first.Stands s F)
    {preferred : String} (hlegal : Xml.isLegalText preferred) :
    Reports s F (typeFor g preferred) ((s.judge g.first.declaration).map fun _ => ()) := by
  cases hjudge : s.judge g.first.declaration with
  | error e => exact .of_computes (computes_typeFor_error hg hjudge preferred)
  | ok digest =>
    refine .of_performs (fun uri => performs_typeFor_of_judge hg hjudge preferred) fun uri => ?_
    exact succeeds_draftType hlegal (succeeds_draftBody hF _ _ hg.has)

lemma reports_rootOf (hF : Spelled F) {g : Siblings Subject} (hg : ∀ x ∈ g.members, x.Stands s F)
    (hname : Xml.isLegalText g.name) :
    Reports s F (rootOf s g) (s.verdictOf (g.map Subject.declaration)) := by
  have hunit (r : Except ConversionError Unit) : r.map (fun _ => ()) = r := by cases r <;> rfl
  have hmerge := Reports.of_computes (computes_merge fun x hx => (hg x hx).digest)
  rw [judgedGroup_eq, hunit] at hmerge
  have htype := reports_typeFor hF (hg _ g.first_mem_members) (isLegalText_typeNameBase hname)
  unfold rootOf Settings.verdictOf
  refine .bind hmerge fun _ _ => .finish htype fun name => ?_
  exact .finish (.of_computes (computes_tell _)) fun _ => .get_bind fun c => .pure _

end

/-- A compilation fails for a conflict where the verdict on its roots is that conflict, provided
that their names can stand in a document. -/
theorem compile_eq_conflict_iff {s : Settings} {p : ElementProfile}
    (hF : Spelled (.ofRoots p.roots)) (name : String) (count : Nat) :
    compile s p = .error (.conflict name count) ↔
    s.verdict p.roots = .error (.conflict name count) := by
  have hgroups := groups_map (Subject.ofAll s [] 0 p.roots)
  rw [Subject.declaration_ofAll] at hgroups
  have hreports : Reports s (.ofRoots p.roots)
      ((groups (Subject.ofAll s [] 0 p.roots)).mapM (rootOf s))
      (s.verdict p.roots) := by
    rw [Settings.verdict, ← hgroups]
    refine .mapM fun g hg => ?_
    have hstands := Subject.stands_of_mem_group hg
    have hname : g.first.declaration.name = g.name := Siblings.name_first hg
    exact reports_rootOf hF hstands (hname ▸ hF _ (hstands _ g.first_mem_members).has)
  have hends := hreports (.start p.uri) ⟨known_start s _ p.uri, trivial⟩
  change ((compileRoots s p.roots).run (.start p.uri)).1 = _ ↔ _
  unfold compileRoots
  rw [run_bind]
  rcases hrun : ((groups (Subject.ofAll s [] 0 p.roots)).mapM (rootOf s)).run
    (.start p.uri) with ⟨e | declared, c⟩
  · rw [hends.error e (by rw [hrun])]
    dsimp only
    rw [Except.error.injEq, Except.error.injEq]
  · rw [hends.ok declared (by rw [hrun])]
    dsimp only
    rw [run_get_bind]
    -- What is left to fail is putting the schema together, and that is no conflict.
    cases Schema.make c.uri declared c.registry.types with
    | ok schema => simp
    | error fault => simp

end SchemaLoom.Xsd
