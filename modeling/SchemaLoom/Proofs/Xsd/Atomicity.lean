import SchemaLoom.Proofs.Xsd.Repetition
import SchemaLoom.Proofs.Xsd.Upkeep
import SchemaLoom.Proofs.Xsd.Verdict

/-! A conflict leaves no trace in the registry: the digest that is asked for first finds every
conflict that the body would find, so nothing is refused once a name was taken. The names in use are
those of the types that are there, and those that were asked for by themselves. -/
namespace SchemaLoom.Xsd
open Profile (Declaration Siblings Forest Source ConversionError elementTag)
open Xml (Node)

/-- The names in use are those of the types that are there, and those that were given out. -/
def Registry.Tidy (given : List String) (r : Registry) : Prop :=
  ∀ name, name ∈ r.usedNames ↔ name ∈ r.types.map TypeDefinition.name ∨ name ∈ given

/-- Where it succeeds, a draft takes no name that it does not put in a type of. -/
def Settles {α : Type} (p : Drafting α) : Prop :=
  ∀ given r a r', r.Tidy given → p.run r = .ok (a, r') → r'.Tidy given

section
variable {s : Settings} {F : Forest} {given : List String} {r : Registry} {α β : Type}

namespace Registry.Tidy

lemma allocate (h : r.Tidy given) (preferred : String) :
    (r.allocate preferred).2.Tidy (given ++ [(r.allocate preferred).1]) := by
  intro name
  change name ∈ r.usedNames ++ [(r.allocate preferred).1] ↔
    name ∈ r.types.map TypeDefinition.name ∨ _
  rw [List.mem_append, List.mem_append, h name, or_assoc]

lemma register {t : TypeDefinition} (h : r.Tidy (given ++ [t.name]))
    (hnew : r.find? t.digest = none) :
    (r.register t).Tidy given := by
  rw [register_of_new hnew]
  intro name
  change name ∈ r.usedNames ↔ name ∈ (r.types ++ [t]).map TypeDefinition.name ∨ _
  rw [h name, List.map_append, List.mem_append, List.mem_append, List.map_singleton]
  tauto

end Registry.Tidy

namespace Settles

/-- A step that leaves the registry alone. -/
theorem of_steady {p : Drafting α} (h : ∀ r a r', p.run r = .ok (a, r') → r' = r) : Settles p :=
  fun _ r a r' hr hrun => h r a r' hrun ▸ hr

theorem pure (a : α) : Settles (pure a : Drafting α) := .of_steady fun r b r' hrun => by
  cases hrun
  rfl

theorem bind {p : Drafting α} {k : α → Drafting β} (hp : Settles p) (hk : ∀ a, Settles (k a)) :
    Settles (p >>= k) := by
  intro given r b r'' hr hrun
  obtain ⟨a, r', hfirst, hrest⟩ := drafting_bind_eq_ok hrun
  exact hk a given r' b r'' (hp given r a r' hr hfirst) hrest

end Settles

/-- The name that is taken for a type is that of the type once its body was drafted. -/
lemma settles_draftType (hs : s.Grounded F) {d : Declaration} (hd : F.Has d) {preferred : String}
    {body : String → Drafting TypeBody} (hrepeats : ∀ name, Repeats s d.Leads (body name))
    (hbody : ∀ name, Settles (body name)) :
    Settles (draftType (s.fingerprint d) preferred body) := by
  intro given r name r' hr hrun
  obtain ⟨t, -, -, rfl⟩ | ⟨hfind, -, content, r₁, hcontent, rfl⟩ := draftType_cases hrun
  · exact hr
  · have hfree := (hrepeats _).leaves_free (r := (r.allocate preferred).2) hs hd hfind hcontent
    have htaken := hbody _ _ _ _ _ (hr.allocate preferred) hcontent
    exact Registry.Tidy.register (t := ⟨(r.allocate preferred).1, s.fingerprint d, content⟩) htaken
      hfree

theorem settles_draftBody (hs : s.Grounded F) (qualified : Bool) :
    ∀ d : Declaration, F.Has d → ∀ name,
    Settles (s.draftBody qualified d name) := by
  intro d
  induction d using Declaration.induction with
  | h f children ih =>
    intro hd name
    refine Settings.closed_draftBody (P := fun _ p => Settles p) (fun _ => .pure)
      (fun _ _ _ _ => .bind)
      (.of_steady fun _ _ _ hrun => eq_of_run_legal hrun) fun g hg => ?_
    have hfirst := hd.first hg
    refine settles_draftType hs hfirst (repeats_draftBody hs qualified _ hfirst) ?_
    exact ih _ (Declaration.first_mem_children hg) hfirst

/-! ## Steps of a compilation -/

lemma Upholds.of_performs {I : Registry → Prop} {m : Compiling α} {p : Option String → Drafting α}
    (h : ∀ uri, Performs s F uri m (p uri)) (hp : ∀ uri, Succeeds (p uri))
    (hI : ∀ uri r a r', I r → (p uri).run r = .ok (a, r') → I r') : Upholds s F I m := by
  intro c hc
  obtain ⟨a, c', hrun, hknown, huri, hdraft⟩ := Performs.succeeds h hp hc.1
  refine ⟨?_, ?_, fun _ _ => trivial, fun _ _ => trivial⟩
  · rw [hrun]
    exact ⟨hknown, hI _ _ _ _ hc.2 hdraft⟩
  · rw [hrun]
    exact huri

/-- A type is not begun where its digest fails, and is finished where it does not. -/
lemma tidies_typeFor (hs : s.Grounded F) (hF : Spelled F) {g : Siblings Subject}
    (hg : g.first.Stands s F) {preferred : String} (hlegal : Xml.isLegalText preferred) :
    Upholds s F (Registry.Tidy given) (typeFor g preferred) := by
  cases hjudge : s.judge g.first.declaration with
  | error e => exact .of_computes (computes_typeFor_error hg hjudge preferred)
  | ok digest =>
    refine .of_performs (fun uri => performs_typeFor_of_judge hg hjudge preferred) (fun uri => ?_)
      fun uri => ?_
    · exact succeeds_draftType hlegal (succeeds_draftBody hF _ _ hg.has)
    · exact settles_draftType hs hg.has (repeats_draftBody hs _ _ hg.has)
        (settles_draftBody hs _ _ hg.has) given

lemma tidies_particleOf (hs : s.Grounded F) (hF : Spelled F) {g : Siblings Subject}
    (hg : g.first.Stands s F) (hname : Xml.isLegalText g.name) :
    Upholds s F (Registry.Tidy given) (particleOf g) :=
  upholds_particleOf (tidies_typeFor hs hF hg (isLegalText_typeNameBase hname))

/-- The body of a declaration is compiled type by type: where one is refused, those before it are
whole. -/
lemma tidies_body (hs : s.Grounded F) (hF : Spelled F) (x : Place F) (name : String) :
    Upholds s F (Registry.Tidy given) ((x.subject s).body name) := by
  obtain ⟨path, ⟨f, children⟩, hpath⟩ := x
  refine upholds_bodyOf hpath (fun g hg => ?_) name
  obtain ⟨hst, -, hname⟩ := first_of_mem_groups hpath hg
  exact tidies_typeFor hs hF hst (isLegalText_typeNameBase (hname ▸ hF _ hst.has))

end

/-! ## Calls -/

section
variable {s : Settings} {F : Forest} {given : List String} {c : Context}

/-- The names that a call asks for can stand in a document. What is allocated is left to the
caller. -/
def Call.Legal : Call F → Prop
  | .build _ preferred => Xml.isLegalText preferred
  | .particle g => Xml.isLegalText g.name
  | _ => True

/-- The name that a call gives out by itself. -/
def Call.granted (c : Context) : Call F → List String
  | .allocate preferred => [(c.registry.allocate preferred).1]
  | _ => []

/-- The names that are given out in the course of some calls. -/
def Call.grantedIn (s : Settings) : List (Call F) → Context → List String
  | [], _ => []
  | k :: calls, c => k.granted c ++ grantedIn s calls ((k.perform s).run c).2

lemma tidy_perform (hs : s.Grounded F) (hF : Spelled F) (k : Call F) (hk : k.Legal)
    (hknown : Known s F c) (hc : c.registry.Tidy given) :
    ((k.perform s).run c).2.registry.Tidy (given ++ k.granted c) := by
  have hkept (h : Upholds s F (Registry.Tidy given) (k.perform s)) (hnone : k.granted c = []) :
      ((k.perform s).run c).2.registry.Tidy (given ++ k.granted c) := by
    rw [hnone, List.append_nil]
    exact (h c ⟨hknown, hc⟩).holds.2
  cases k with
  | merge g =>
    refine hkept (.of_computes (computes_merge fun y hy => ?_)) rfl
    obtain ⟨x, -, rfl⟩ := List.mem_map.mp (by rwa [Siblings.map_members] at hy)
    exact x.stands.digest
  | mergeChildren x =>
    exact hkept (upholds_mergeAll fun y hy => Subject.stands_ofAll x.at_path hy) rfl
  | fingerprint x => exact hkept (.bind (.of_computes x.stands.digest) fun _ => .pure ()) rfl
  | build g preferred =>
    exact hkept (.bind (tidies_typeFor hs hF g.first.stands hk) fun _ => .pure ()) rfl
  | body x name => exact hkept (.bind (tidies_body hs hF x name) fun _ => .pure ()) rfl
  | particle g =>
    exact hkept (.bind (tidies_particleOf hs hF g.first.stands hk) fun _ => .pure ()) rfl
  | allocate preferred => exact hc.allocate preferred

/-- Calls keep names in use tidy, those that fail among them. -/
theorem tidy_after (hs : s.Grounded F) (hF : Spelled F) (calls : List (Call F))
    (hcalls : ∀ k ∈ calls, k.Legal) (hsound : Sound s F c) (hc : c.registry.Tidy given) :
    (Call.after s calls c).registry.Tidy (given ++ Call.grantedIn s calls c) := by
  induction calls generalizing c given with
  | nil => simpa [Call.after, Call.grantedIn] using hc
  | cons k calls ih =>
    have hfirst := tidy_perform hs hF k (hcalls k (by simp)) hsound.known hc
    have hnext := ih (fun j hj => hcalls j (by simp [hj])) (recalls_perform k c hsound).holds hfirst
    rw [List.append_assoc] at hnext
    exact hnext

/-- A type that is refused for a conflict was not begun. -/
lemma registry_of_conflict {g : Siblings Subject} (hg : g.first.Stands s F) (hc : Known s F c)
    {preferred name : String} {count : Nat}
    (h : ((typeFor g preferred).run c).1 = .error (.conflict name count)) :
    ((typeFor g preferred).run c).2.registry = c.registry := by
  cases hjudge : s.judge g.first.declaration with
  | error e => exact (computes_typeFor_error hg hjudge preferred c hc).moves.2
  | ok digest =>
    have hperforms : Performs s F c.uri (typeFor g preferred) _ :=
      performs_typeFor_of_judge hg hjudge preferred
    have hrun := hperforms c hc rfl
    split at hrun
    · obtain ⟨c', hrun, -⟩ := hrun
      rw [hrun] at h
      cases h
    · rw [hrun] at h
      cases h

end

/-- After any calls, a type that is refused for a conflict leaves the registry as it was, and after
calls for names that a document can hold the names in use are those of the types that are there and
those that were given out by themselves. -/
theorem conflict_leaves_no_trace (s : Settings) (F : Forest) (uri : Option String)
    (calls : List (Call F)) :
    (∀ (g : Siblings (Place F)) (preferred name : String) (count : Nat) (c : Context),
      (typeFor (g.map (·.subject s)) preferred).run (Call.after s calls (.start uri)) =
        (.error (.conflict name count), c) →
        c.registry = (Call.after s calls (.start uri)).registry) ∧
    ∀ document : Node, document.IsLegal → F.ReadFrom document → s.Grounded F →
    (∀ k ∈ calls, k.Legal) →
      (Call.after s calls (.start uri)).registry.Tidy (Call.grantedIn s calls (.start uri)) := by
  have hsound := sound_start s F uri
  constructor
  · intro g preferred name count c hrun
    have hconflict :
        ((typeFor (g.map (·.subject s)) preferred).run (Call.after s calls (.start uri))).1 =
        .error (.conflict name count) := by rw [hrun]
    have hsame := registry_of_conflict g.first.stands (sound_after calls hsound).known hconflict
    rwa [hrun] at hsame
  · intro document hlegal hF hs hcalls
    have hempty : (Context.start uri).registry.Tidy [] := by
      simp [Registry.Tidy, Context.start, Registry.empty]
    exact tidy_after hs (spelled_of_readFrom hlegal hF) calls hcalls hsound hempty

def numberKeyNode : Node :=
  .element (.plain elementTag) [] [⟨.plain "name", "key"⟩, ⟨.plain "dataType", "number"⟩] []

/-- An item with a key that is a text and a number. -/
def disputedNode : Node :=
  .element (.plain elementTag) [] [⟨.plain "name", "item"⟩] [keyNode, numberKeyNode]

/-- The item, and a key by itself. -/
def disputed : Source := ⟨none, .element (.plain "DataElements") [] [] [disputedNode, keyNode]⟩

def disputedDocument : Node := .element (.plain "XMLProfile") [] [] [disputed.holder]

def itemPlace : Place (.ofRoots disputed.profile.roots) := ⟨[0], .ofNode disputedNode, rfl⟩

def keyPlace : Place (.ofRoots disputed.profile.roots) := ⟨[1], .ofNode keyNode, rfl⟩

/-- A name is taken, then types are asked for the item and for the key. -/
def disputedCalls : List (Call (.ofRoots disputed.profile.roots)) :=
  [.allocate "KeyType", .build ⟨"item", itemPlace, []⟩ "ItemType",
    .build ⟨"key", keyPlace, []⟩ "KeyType"]

lemma legal_disputedCalls : ∀ k ∈ disputedCalls, k.Legal := by
  simp only [disputedCalls, List.forall_mem_cons, Call.Legal]
  exact ⟨trivial, by decide, by decide, by simp⟩

lemma grounded_disputed :
    (Settings.standard .strict true).Grounded (.ofRoots disputed.profile.roots) := by
  apply Settings.NoCollision.grounded
  exact Settings.noCollision_of_table purchasesTable digest_purchasesTable (by decide)
    (by decide +kernel)

/-- What is asked last: the type of the item once more. -/
def askAgain (s : Settings) : Except ConversionError String × Context :=
  (typeFor ((⟨"item", itemPlace, []⟩ : Siblings (Place _)).map (·.subject s)) "ItemType").run
    (Call.after s disputedCalls (.start none))

lemma askAgain_strict : (askAgain (.standard .strict true)).1 = .error (.conflict "key" 2) ∧
    (Call.after (.standard .strict true) disputedCalls (.start none)).registry.usedNames =
    ["KeyType", "KeyType1"] := by
  have hdigest : ∀ e ∈ purchasesTable, (Settings.standard .strict true).digest e.1 = e.2 :=
    digest_purchasesTable
  rw [← Settings.digest_table purchasesTable hdigest]
  decide +kernel

lemma isLegal_disputed : disputedDocument.IsLegal := by
  unfold Node.IsLegal
  decide +kernel

/-- The item is refused twice and leaves nothing: of the two names in use one was given out, and the
other is that of the type of the key. -/
theorem disputed_leaves_no_trace :
    (askAgain (.standard .strict true)).1 = .error (.conflict "key" 2) ∧
    (askAgain (.standard .strict true)).2.registry =
      (Call.after (.standard .strict true) disputedCalls (.start none)).registry ∧
    (Call.after (.standard .strict true) disputedCalls (.start none)).registry.usedNames =
    ["KeyType", "KeyType1"] ∧
    disputedDocument.IsLegal ∧ (Forest.ofRoots disputed.profile.roots).ReadFrom disputedDocument ∧
    (Settings.standard .strict true).Grounded (.ofRoots disputed.profile.roots) ∧
    (∀ k ∈ disputedCalls, k.Legal) ∧
    (Call.after (.standard .strict true) disputedCalls (.start none)).registry.Tidy
      (Call.grantedIn (.standard .strict true) disputedCalls (.start none)) := by
  obtain ⟨hrefused, hused⟩ := askAgain_strict
  have hdoc : Source.ofDocument disputedDocument = .ok disputed := rfl
  have hread := Profile.readFrom_profile hdoc
  obtain ⟨hconflict, htidy⟩ := conflict_leaves_no_trace (.standard .strict true)
    (.ofRoots disputed.profile.roots) none disputedCalls
  refine ⟨hrefused, ?_, hused, isLegal_disputed, hread, grounded_disputed, legal_disputedCalls, ?_⟩
  · exact hconflict _ _ _ _ _ (Prod.ext hrefused rfl)
  · exact htidy _ isLegal_disputed hread grounded_disputed legal_disputedCalls

end SchemaLoom.Xsd
