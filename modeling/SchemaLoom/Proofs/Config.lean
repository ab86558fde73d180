import Mathlib.Tactic.Lemma
import SchemaLoom.Config
import SchemaLoom.Proofs.Traversal
import SchemaLoom.Yaml.Meaning

/-! Which files are configurations, whatever reads the YAML in them: those that hold nothing, or a
mapping of settings to values that these can have. What else is refused with a fault of the
configuration, but for a few cases that are let through and a few that end in another fault. -/
namespace SchemaLoom
open Files (Store AccessFault)
open Profile (Level)

/-- What is looked up by its name is what has that name, if looking for the name of each thing finds
it. -/
lemma find_named_eq_some_iff {α : Type} {all : List α} {name : α → String}
    (hown : ∀ a, all.find? (fun b => name b == name a) = some a) {s : String} {a : α} :
    all.find? (fun b => name b == s) = some a ↔ s = name a := by
  constructor
  · intro h
    exact (beq_iff_eq.mp (List.find?_some (p := fun b => name b == s) h)).symm
  · rintro rfl
    exact hown a

lemma JsonSchema.Draft.ofName_eq_some_iff {s : String} {d : Draft} :
    ofName? s = some d ↔ s = d.name :=
  find_named_eq_some_iff fun d => by cases d <;> decide

lemma Xsd.MergeMode.ofName_eq_some_iff {s : String} {m : MergeMode} :
    ofName? s = some m ↔ s = m.name :=
  find_named_eq_some_iff fun m => by cases m <;> decide

lemma Profile.Level.ofName_eq_some_iff {s : String} {l : Level} : ofName? s = some l ↔ s = l.name :=
  find_named_eq_some_iff fun l => by cases l <;> decide

namespace Config

/-- The entries of a mapping. -/
abbrev Entries := List (Yaml.Value × Yaml.Value)

/-- What a setting is: the value that is given for it, read as such a setting is, or else its
default. -/
def Sets (entries : Entries) (key : String) (default : α) (reads : Yaml.Value → α → Prop) (a : α) :
    Prop :=
  match Yaml.Value.member? entries key with
  | some v => reads v a
  | none => a = default

/-- A level may be written in capitals or not. -/
def ReadsLevel (v : Yaml.Value) (l : Level) : Prop := ∃ s, v = .string s ∧ Text.upper s = l.name

/-- Every key is the name of a setting. -/
def AreKnown (entries : Entries) : Prop := ∀ e ∈ entries, ∃ key ∈ keys, e.1 = .string key

def SetsDraft (entries : Entries) : JsonSchema.Draft → Prop :=
  Sets entries "json_schema_draft" .draft07 fun v d => v = .string d.name

def SetsMode (entries : Entries) : Xsd.MergeMode → Prop :=
  Sets entries "merge_mode" .permissive fun v m => v = .string m.name

def SetsFlag (entries : Entries) (key : String) (default : Bool) : Bool → Prop :=
  Sets entries key default fun v b => v = .bool b

/-- A configuration has the values of a mapping, over the defaults. -/
structure Over (entries : Entries) (c : Config) : Prop where
  outputDir : c.outputDir = (Yaml.Value.member? entries "output_dir").getD .null
  draft : SetsDraft entries c.draft
  mode : SetsMode entries c.mode
  level : Sets entries "log_level" .warning ReadsLevel c.level
  shareAcrossNames : SetsFlag entries "share_types_across_names" true c.shareAcrossNames
  validateOutput : SetsFlag entries "validate_output" true c.validateOutput
  writeYaml : SetsFlag entries "write_yaml" false c.writeYaml

lemma textOf_eq_some_iff {v : Yaml.Value} {s : String} : textOf? v = some s ↔ v = .string s := by
  cases v <;> simp [textOf?]

section
variable {entries : Entries} {key : String} {default : α}
  {strange? : Yaml.Value → Option ConfigFault} {find : String → Option α} {names : List String}
  {a : α} {fault : ConfigFault}

lemma choice_eq_ok_iff {reads : Yaml.Value → α → Prop}
    (h : ∀ v a, reads v a ↔ strange? v = none ∧ (textOf? v).bind find = some a) :
    choice entries key default strange? find names = .ok a ↔ Sets entries key default reads a := by
  unfold choice Sets
  cases Yaml.Value.member? entries key with
  | none => simp [eq_comm]
  | some v =>
    simp only [h]
    cases strange? v with
    | some fault => simp
    | none => cases (textOf? v).bind find <;> simp

lemma exists_of_choice_eq_error
    (h : choice entries key default strange? find names = .error fault) :
    ∃ v, Yaml.Value.member? entries key = some v ∧
      (strange? v = some fault ∨ strange? v = none ∧ fault = .invalid (.noChoice key names)) := by
  unfold choice at h
  split at h
  · cases h
  · rename_i v hv
    refine ⟨v, hv, ?_⟩
    split at h
    · rename_i hstrange
      cases h
      exact .inl hstrange
    · rename_i hplain
      split at h
      · cases h
      · cases h
        exact .inr ⟨hplain, rfl⟩

theorem draftOf_eq_ok_iff {d : JsonSchema.Draft} :
    draftOf entries = .ok d ↔ SetsDraft entries d := by
  refine choice_eq_ok_iff fun v d => ?_
  simp only [Option.bind_eq_some_iff, textOf_eq_some_iff, JsonSchema.Draft.ofName_eq_some_iff]
  constructor
  · rintro rfl
    exact ⟨rfl, _, rfl, rfl⟩
  · rintro ⟨-, s, rfl, rfl⟩
    rfl

theorem modeOf_eq_ok_iff {m : Xsd.MergeMode} : modeOf entries = .ok m ↔ SetsMode entries m := by
  refine choice_eq_ok_iff fun v m => ?_
  simp [Option.bind_eq_some_iff, textOf_eq_some_iff, Xsd.MergeMode.ofName_eq_some_iff]

theorem levelOf_eq_ok_iff {l : Level} :
    levelOf entries = .ok l ↔ Sets entries "log_level" .warning ReadsLevel l := by
  refine choice_eq_ok_iff fun v l => ?_
  simp only [Option.bind_eq_some_iff, textOf_eq_some_iff, Profile.Level.ofName_eq_some_iff]
  constructor
  · rintro ⟨s, rfl, hs⟩
    exact ⟨rfl, s, rfl, hs⟩
  · rintro ⟨-, s, rfl, hs⟩
    exact ⟨s, rfl, hs⟩

theorem flag_eq_ok_iff {default b : Bool} :
    flag entries key default = .ok b ↔ SetsFlag entries key default b := by
  unfold flag SetsFlag Sets
  split
  · rename_i hnone
    simp [hnone, eq_comm]
  · rename_i given hgiven
    simp [hgiven]
  · rename_i v hother hv
    simp only [hv, reduceCtorEq, false_iff]
    exact hother b

/-- The settings of a mapping make a configuration just if it has their values over the defaults. -/
theorem ofEntries_eq_ok_iff {c : Config} : ofEntries entries = .ok c ↔ Over entries c := by
  constructor
  · intro h
    obtain ⟨draft, hdraft, h⟩ := bind_eq_ok h
    obtain ⟨mode, hmode, h⟩ := bind_eq_ok h
    obtain ⟨level, hlevel, h⟩ := bind_eq_ok h
    obtain ⟨share, hshare, h⟩ := bind_eq_ok h
    obtain ⟨validate, hvalidate, h⟩ := bind_eq_ok h
    obtain ⟨yaml, hyaml, h⟩ := bind_eq_ok h
    cases h
    exact {
      outputDir := rfl
      draft := draftOf_eq_ok_iff.mp hdraft
      mode := modeOf_eq_ok_iff.mp hmode
      level := levelOf_eq_ok_iff.mp hlevel
      shareAcrossNames := flag_eq_ok_iff.mp hshare
      validateOutput := flag_eq_ok_iff.mp hvalidate
      writeYaml := flag_eq_ok_iff.mp hyaml }
  · rintro ⟨houtput, hdraft, hmode, hlevel, hshare, hvalidate, hyaml⟩
    unfold ofEntries
    simp only [draftOf_eq_ok_iff.mpr hdraft, modeOf_eq_ok_iff.mpr hmode,
      levelOf_eq_ok_iff.mpr hlevel]
    rw [show Config.default.shareAcrossNames = true from rfl,
      show Config.default.validateOutput = true from rfl, show Config.default.writeYaml =
      false from rfl, flag_eq_ok_iff.mpr hshare, flag_eq_ok_iff.mpr hvalidate,
      flag_eq_ok_iff.mpr hyaml]
    cases c
    subst houtput
    rfl

end

/-! ## Faults that are none of the configuration -/

/-- A reading ends in a fault that is no fault of the configuration. -/
def Untold (r : Except ConfigFault α) : Prop := ∃ fault, r = .error fault ∧ ∀ e, fault ≠ .invalid e

section
variable {entries : Entries} {key : String} {default : α}
  {strange? : Yaml.Value → Option ConfigFault} {find : String → Option α} {names : List String}
  {fault : ConfigFault}

lemma not_untold_ok {a : α} : ¬Untold (.ok a) := by
  rintro ⟨fault, h, -⟩
  cases h

lemma not_untold_pure {a : α} : ¬Untold (pure a : Except ConfigFault α) := not_untold_ok

lemma not_untold_invalid {e : ConfigError} :
    ¬Untold (.error (.invalid e) : Except ConfigFault α) := by
  rintro ⟨fault, h, hfault⟩
  cases h
  exact hfault e rfl

lemma untold_bind {m : Except ConfigFault α} {f : α → Except ConfigFault β} :
    Untold (m >>= f) ↔ Untold m ∨ ∃ a, m = .ok a ∧ Untold (f a) := by
  cases m with
  | error fault =>
    constructor
    · rintro ⟨_, h, hfault⟩
      cases h
      exact .inl ⟨fault, rfl, hfault⟩
    · rintro (⟨_, h, hfault⟩ | ⟨_, h, -⟩)
      · cases h
        exact ⟨fault, rfl, hfault⟩
      · cases h
  | ok a =>
    constructor
    · exact fun h => .inr ⟨a, rfl, h⟩
    · rintro (h | ⟨b, h, hb⟩)
      · exact absurd h not_untold_ok
      · cases h
        exact hb

lemma untold_choice_iff (h : ∀ v fault, strange? v = some fault → ∀ e, fault ≠ .invalid e) :
    Untold (choice entries key default strange? find names) ↔
      ∃ v, Yaml.Value.member? entries key = some v ∧ (strange? v).isSome := by
  constructor
  · rintro ⟨fault, hfault, htold⟩
    obtain ⟨v, hv, hstrange | ⟨-, rfl⟩⟩ := exists_of_choice_eq_error hfault
    · exact ⟨v, hv, by rw [hstrange]; rfl⟩
    · exact absurd rfl (htold _)
  · rintro ⟨v, hv, hstrange⟩
    obtain ⟨fault, hfault⟩ := Option.isSome_iff_exists.mp hstrange
    exact ⟨fault, by simp only [choice, hv, hfault], h v fault hfault⟩

lemma untold_draftOf_iff : Untold (draftOf entries) ↔
    ∃ v, Yaml.Value.member? entries "json_schema_draft" = some v ∧ v.isCollection = true := by
  rw [draftOf, untold_choice_iff]
  · refine exists_congr fun v => and_congr_right fun _ => ?_
    cases v.isCollection <;> simp
  · intro v fault h e
    split at h <;> cases h
    exact ConfigFault.noConfusion

lemma not_untold_modeOf : ¬Untold (modeOf entries) := by
  rw [modeOf, untold_choice_iff] <;> simp

lemma untold_levelOf_iff : Untold (levelOf entries) ↔
    ∃ v, Yaml.Value.member? entries "log_level" = some v ∧ v.isWritable = false := by
  rw [levelOf, untold_choice_iff]
  · refine exists_congr fun v => and_congr_right fun _ => ?_
    cases v.isWritable <;> simp
  · intro v fault h e
    split at h <;> cases h
    exact ConfigFault.noConfusion

lemma not_untold_flag {default : Bool} : ¬Untold (flag entries key default) := by
  unfold flag
  split
  · exact not_untold_ok
  · exact not_untold_ok
  · exact not_untold_invalid

/-- Settings that cannot even be looked up: a collection as the draft, or a level whose text would
be too long. -/
inductive Strange (entries : Entries) : Prop
  | draft {v : Yaml.Value} (hv : Yaml.Value.member? entries "json_schema_draft" = some v)
      (h : v.isCollection = true)
  | level {v : Yaml.Value} {d : JsonSchema.Draft} {m : Xsd.MergeMode} (hdraft : SetsDraft entries d)
    (hmode : SetsMode entries m) (hv : Yaml.Value.member? entries "log_level" = some v)
    (h : v.isWritable = false)

theorem untold_ofEntries_iff : Untold (ofEntries entries) ↔ Strange entries := by
  unfold ofEntries
  simp only [untold_bind, untold_draftOf_iff, not_untold_modeOf, untold_levelOf_iff,
    not_untold_flag, not_untold_pure, draftOf_eq_ok_iff, modeOf_eq_ok_iff, false_or, and_false,
    exists_false, or_false]
  constructor
  · rintro (⟨v, hv, h⟩ | ⟨d, hdraft, m, hmode, v, hv, h⟩)
    · exact .draft hv h
    · exact .level hdraft hmode hv h
  · rintro (⟨hv, h⟩ | ⟨hdraft, hmode, hv, h⟩)
    · exact .inl ⟨_, hv, h⟩
    · exact .inr ⟨_, hdraft, _, hmode, _, hv, h⟩

end

/-! ## Values -/

section
variable {entries : Entries} {name : String} {v : Yaml.Value} {c : Config}

lemma mem_unknownKeys {k : Yaml.Value} :
    k ∈ unknownKeys entries ↔ k ∈ entries.map (·.1) ∧ ∀ key ∈ keys, k ≠ .string key := by
  rw [unknownKeys, List.mem_filter]
  refine and_congr_right fun _ => ?_
  rw [Bool.not_eq_true', ← Bool.not_eq_true, Option.any_eq_true]
  simp only [textOf_eq_some_iff, List.contains_iff_mem]
  constructor
  · rintro h key hkey rfl
    exact h ⟨key, rfl, hkey⟩
  · rintro h ⟨s, rfl, hs⟩
    exact h s hs rfl

lemma unknownKeys_eq_nil_iff : unknownKeys entries = [] ↔ AreKnown entries := by
  rw [List.eq_nil_iff_forall_not_mem]
  simp only [mem_unknownKeys, List.mem_map, not_and, not_forall, not_not, AreKnown]
  constructor
  · intro h e he
    obtain ⟨key, hkey, hsame⟩ := h e.1 ⟨e, he, rfl⟩
    exact ⟨key, hkey, hsame⟩
  · rintro h k ⟨e, he, rfl⟩
    obtain ⟨key, hkey, hsame⟩ := h e he
    exact ⟨key, hkey, hsame⟩

lemma ofValue_of_known (h : AreKnown entries) :
    ofValue name (.mapping entries) = ofEntries entries := by
  cases entries with
  | nil => rfl
  | cons e rest =>
    simp only [ofValue, unknownKeys_eq_nil_iff.mpr h]
    rfl

lemma strangeKeys_ne_invalid (unknown : List Yaml.Value) (e : ConfigError) :
    strangeKeys unknown ≠ .invalid e := by
  unfold strangeKeys
  split
  · exact ConfigFault.noConfusion
  · split <;> exact ConfigFault.noConfusion

/-- Unknown keys are told if all of them are texts. -/
lemma ofValue_of_unknown (name : String) (h : ¬AreKnown entries) :
    ∃ fault, ofValue name (.mapping entries) = .error fault ∧
      ((∃ e, fault = .invalid e) ↔ ∀ e ∈ entries, e.1.isText = true) := by
  have hunknown : unknownKeys entries ≠ [] := mt unknownKeys_eq_nil_iff.mp h
  have htexts : (unknownKeys entries).all (·.isText) = true ↔ ∀ e ∈ entries, e.1.isText = true := by
    simp only [List.all_eq_true, mem_unknownKeys]
    constructor
    · intro hall e he
      by_cases hkey : ∀ key ∈ keys, e.1 ≠ .string key
      · exact hall _ ⟨List.mem_map_of_mem he, hkey⟩
      · simp only [not_forall, not_not] at hkey
        obtain ⟨key, -, hsame⟩ := hkey
        rw [hsame]
        rfl
    · rintro hall k ⟨hk, -⟩
      obtain ⟨e, he, rfl⟩ := List.mem_map.mp hk
      exact hall e he
  have hsome : entries ≠ [] := fun e => h (by simp [e, AreKnown])
  have hvalue : ofValue name (.mapping entries) =
      if (unknownKeys entries).all (·.isText) then
        .error (.invalid (.ofUnknown (unknownKeys entries)))
      else .error (strangeKeys (unknownKeys entries)) := by
    simp [ofValue, Yaml.Value.isAbsent, hsome, hunknown]
  rw [hvalue]
  split
  · rename_i htext
    exact ⟨_, rfl, fun _ => htexts.mp htext, fun _ => ⟨_, rfl⟩⟩
  · rename_i htext
    refine ⟨_, rfl, fun ⟨e, he⟩ => absurd he (strangeKeys_ne_invalid _ e), fun hall => ?_⟩
    exact absurd (htexts.mpr hall) htext

/-- What a value stands for: nothing for the defaults, and a mapping of settings for its values over
them. -/
inductive Gives : Yaml.Value → Config → Prop
  | nothing : Gives .null default
  | mapping {entries : Entries} {c : Config} (known : AreKnown entries) (h : Over entries c) :
    Gives (.mapping entries) c

/-- A value that is taken for nothing without being nothing: no mapping, but false, zero or
empty. -/
structure IsHollow (v : Yaml.Value) : Prop where
  absent : v.isAbsent = true
  something : v ≠ .null
  noMapping : ∀ entries, v ≠ .mapping entries

/-- A mapping that cannot even be refused: a key is no text, or a setting cannot be looked up. -/
def IsStrange (v : Yaml.Value) : Prop := ∃ entries, v = .mapping entries ∧
  ((∃ e ∈ entries, e.1.isText = false) ∨ AreKnown entries ∧ Strange entries)

lemma ofValue_of_other (h : ∀ entries, v ≠ .mapping entries) :
    ofValue name v = if v.isAbsent then .ok default else .error (.invalid (.noMapping name)) := by
  cases v with
  | mapping entries => exact absurd rfl (h entries)
  | _ => rfl

theorem ofValue_eq_ok_iff (name : String) :
    ofValue name v = .ok c ↔ Gives v c ∨ IsHollow v ∧ c = default := by
  by_cases hmapping : ∃ entries, v = .mapping entries
  · obtain ⟨entries, rfl⟩ := hmapping
    have hother : ¬IsHollow (.mapping entries) := fun h => h.noMapping entries rfl
    by_cases hknown : AreKnown entries
    · rw [ofValue_of_known hknown, ofEntries_eq_ok_iff]
      refine ⟨fun h => .inl (.mapping hknown h), ?_⟩
      rintro (h | ⟨h, -⟩)
      · cases h with
        | mapping _ h => exact h
      · exact absurd h hother
    · obtain ⟨fault, hfault, -⟩ := ofValue_of_unknown name hknown
      rw [hfault]
      refine ⟨fun h => (by cases h), ?_⟩
      rintro (h | ⟨h, -⟩)
      · cases h with
        | mapping known _ => exact absurd known hknown
      · exact absurd h hother
  · have hother : ∀ entries, v ≠ .mapping entries := not_exists.mp hmapping
    rw [ofValue_of_other hother]
    constructor
    · intro h
      split at h
      · rename_i habsent
        cases h
        by_cases hnull : v = .null
        · exact .inl (hnull ▸ .nothing)
        · exact .inr ⟨⟨habsent, hnull, hother⟩, rfl⟩
      · cases h
    · rintro (h | ⟨h, rfl⟩)
      · cases h with
        | nothing => rfl
        | mapping _ _ => exact absurd rfl (hother _)
      · rw [if_pos h.absent]

theorem untold_ofValue_iff : Untold (ofValue name v) ↔ IsStrange v := by
  by_cases hmapping : ∃ entries, v = .mapping entries
  · obtain ⟨entries, rfl⟩ := hmapping
    have hstrange : IsStrange (.mapping entries) ↔
        (∃ e ∈ entries, e.1.isText = false) ∨ AreKnown entries ∧ Strange entries := by
      constructor
      · rintro ⟨_, h, hcases⟩
        cases h
        exact hcases
      · exact fun h => ⟨entries, rfl, h⟩
    rw [hstrange]
    by_cases hknown : AreKnown entries
    · rw [ofValue_of_known hknown, untold_ofEntries_iff]
      refine ⟨fun h => .inr ⟨hknown, h⟩, ?_⟩
      rintro (⟨e, he, hkey⟩ | ⟨-, h⟩)
      · obtain ⟨key, -, hsame⟩ := hknown e he
        rw [hsame] at hkey
        cases hkey
      · exact h
    · obtain ⟨fault, hfault, htold⟩ := ofValue_of_unknown name hknown
      rw [hfault]
      constructor
      · rintro ⟨_, h, hother⟩
        cases h
        have hnot := mt htold.mpr fun ⟨e, he⟩ => hother e he
        exact .inl (by simpa using hnot)
      · rintro (⟨e, he, hkey⟩ | ⟨h, -⟩)
        · refine ⟨fault, rfl, fun told h => ?_⟩
          rw [htold.mp ⟨told, h⟩ e he] at hkey
          cases hkey
        · exact absurd h hknown
  · have hother : ∀ entries, v ≠ .mapping entries := not_exists.mp hmapping
    rw [ofValue_of_other hother]
    constructor
    · intro h
      split at h
      · exact absurd h not_untold_ok
      · exact absurd h not_untold_invalid
    · rintro ⟨entries, h, -⟩
      exact absurd h (hother entries)

end

/-! ## Files -/

/-- The file that is read: the named one, or else the usual one if there is one. -/
def fileOf (files : Store) : Option String → Option String
  | some name => some name
  | none => if files.holds defaultName then some defaultName else none

section
variable (loader : Yaml.Loader)

/-- A file is one of text, in which the loader finds a value. -/
def Contains (files : Store) (file : String) (v : Yaml.Value) : Prop := ∃ octets cs,
  files.read file = .ok octets ∧ Text.ofUtf8 octets = .ok cs ∧ loader (Text.plainLines cs) = .ok v

/-- What a configuration is loaded from: no file at all, a file that holds it, or one that holds
what is taken for nothing. -/
inductive Loads (files : Store) (name : Option String) : Config → Prop
  | nothing (h : fileOf files name = none) : Loads files name default
  | file {file : String} {v : Yaml.Value} {c : Config} (h : fileOf files name = some file)
    (hv : Contains loader files file v) (hc : Gives v c) : Loads files name c
  | hollow {file : String} {v : Yaml.Value} (h : fileOf files name = some file)
    (hv : Contains loader files file v) (hhollow : IsHollow v) : Loads files name default

/-- What is not foreseen in a file: its name cannot be one, its octets are no text, the loader ends
in another fault than that of a malformed text, or its value is strange. -/
def Unforeseen (files : Store) (file : String) : Prop :=
  match files.read file with
  | .error fault => fault.reason = .nullCharacter
  | .ok octets =>
    match Text.ofUtf8 octets with
    | .error _ => True
    | .ok cs =>
      match loader (Text.plainLines cs) with
      | .error fault => fault ≠ .malformed
      | .ok v => IsStrange v

end

section
variable {loader : Yaml.Loader} {files : Store} {file : String} {name : Option String}
  {v : Yaml.Value} {c : Config}

lemma load_eq (loader : Yaml.Loader) (files : Store) (name : Option String) :
    load loader files name =
      match fileOf files name with
      | some file => load.ofFile loader files file
      | none => .ok default := by
  cases name with
  | some name => rfl
  | none =>
    simp only [load, fileOf]
    split <;> rfl

theorem ofFile_eq_ok_iff : load.ofFile loader files file = .ok c ↔
    ∃ v, Contains loader files file v ∧ (Gives v c ∨ IsHollow v ∧ c = default) := by
  simp only [← ofValue_eq_ok_iff file]
  constructor
  · intro h
    unfold load.ofFile at h
    split at h
    · rename_i octets hread
      unfold ofOctets at h
      split at h
      · cases h
      · rename_i cs hcs
        split at h
        · rename_i v hv
          exact ⟨v, ⟨octets, cs, hread, hcs, hv⟩, h⟩
        · cases h
        · cases h
    · cases h
  · rintro ⟨v, ⟨octets, cs, hread, hcs, hv⟩, h⟩
    simp only [load.ofFile, hread, ofOctets, hcs, hv, h]

theorem untold_ofFile_iff :
    Untold (load.ofFile loader files file) ↔ Unforeseen loader files file := by
  unfold load.ofFile Unforeseen
  cases files.read file with
  | error fault =>
    by_cases hnull : fault.reason = .nullCharacter
    · simp [hnull, Untold]
    · simp [hnull, not_untold_invalid]
  | ok octets =>
    simp only [ofOctets]
    cases Text.ofUtf8 octets with
    | error fault => simp [Untold]
    | ok cs =>
      simp only
      cases loader (Text.plainLines cs) with
      | ok v => exact untold_ofValue_iff
      | error fault =>
        by_cases hmalformed : fault = .malformed
        · simp [hmalformed, not_untold_invalid]
        · simp [hmalformed, Untold]

theorem load_eq_ok_iff : load loader files name = .ok c ↔ Loads loader files name c := by
  rw [load_eq]
  cases hfile : fileOf files name with
  | none =>
    constructor
    · intro h
      cases h
      exact .nothing hfile
    · intro h
      cases h with
      | nothing _ => rfl
      | file h _ _ => exact absurd (hfile.symm.trans h) (by simp)
      | hollow h _ _ => exact absurd (hfile.symm.trans h) (by simp)
  | some file =>
    simp only [ofFile_eq_ok_iff]
    constructor
    · rintro ⟨v, hv, h | ⟨h, rfl⟩⟩
      · exact .file hfile hv h
      · exact .hollow hfile hv h
    · intro h
      cases h with
      | nothing h => exact absurd (hfile.symm.trans h) (by simp)
      | file h hv hc =>
        cases Option.some.inj (hfile.symm.trans h)
        exact ⟨_, hv, .inl hc⟩
      | hollow h hv hhollow =>
        cases Option.some.inj (hfile.symm.trans h)
        exact ⟨_, hv, .inr ⟨hhollow, rfl⟩⟩

lemma untold_load_iff : Untold (load loader files name) ↔
    ∃ file, fileOf files name = some file ∧ Unforeseen loader files file := by
  rw [load_eq]
  cases fileOf files name with
  | none => simp [not_untold_ok]
  | some file => simp [untold_ofFile_iff]

/-- A reading ends in a value, a fault of the configuration, or another fault. -/
lemma exists_invalid_iff {r : Except ConfigFault α} :
    (∃ e, r = .error (.invalid e)) ↔ (∀ a, r ≠ .ok a) ∧ ¬Untold r := by
  constructor
  · rintro ⟨e, rfl⟩
    exact ⟨fun _ h => (by cases h), not_untold_invalid⟩
  · rintro ⟨hok, htold⟩
    cases r with
    | ok a => exact absurd rfl (hok a)
    | error fault =>
      by_contra hnone
      exact htold ⟨fault, rfl, fun e he => hnone ⟨e, he ▸ rfl⟩⟩

end

/-- A file whose draft is a list. -/
def listedFiles : Store := ⟨[(["c.yaml"], .file "json_schema_draft: []".toUTF8.toList)]⟩

end Config
end SchemaLoom
