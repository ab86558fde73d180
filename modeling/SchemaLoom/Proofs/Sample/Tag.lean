import Mathlib.Data.List.TakeWhile
import SchemaLoom.Proofs.Traversal
import SchemaLoom.Sample.Document

/-! The names of sample elements. A reference to a resource has no brace in it that could be taken
for the end of a namespace, unless the name behind it cannot be written. -/
namespace SchemaLoom.Sample
open Xml (isPlainNameText splitTag)

section
variable {s : String} {r : Option String × String}

/-- A name that does not begin with a brace is in no namespace. -/
lemma splitTag_bare (h : splitTag s = .ok r) (hs : ∀ rest, s.toList ≠ '\x7b' :: rest) :
    r = (none, s) := by
  unfold splitTag at h
  obtain ⟨_, -, h⟩ := bind_eq_ok h
  split at h
  · cases h
  · rename_i rest hrest
    exact absurd hrest (hs rest)
  · cases h
    rfl

/-- A namespace in braces ends with the first closing brace. -/
lemma splitTag_braced {cs : List Char} (h : splitTag (String.ofList ('\x7b' :: cs)) = .ok r) :
    ∃ uri part, cs = uri ++ '\x7d' :: part ∧ '\x7d' ∉ uri ∧
      r = (if String.ofList uri = "" then none else some (String.ofList uri),
      String.ofList part) := by
  unfold splitTag at h
  obtain ⟨_, -, h⟩ := bind_eq_ok h
  rw [String.toList_ofList] at h
  split at h
  · rename_i heq
    cases heq
  · rename_i rest heq
    cases heq
    split at h
    · cases h
    · cases h
    · rename_i brace part _ hdrop
      have hbrace : brace = '\x7d' := by
        have hhead := List.head_dropWhile_not (· != '\x7d') (l := cs) (by rw [hdrop]; simp)
        simpa [hdrop] using hhead
      subst hbrace
      refine ⟨cs.takeWhile (· != '\x7d'), part, ?_, ?_, ?_⟩
      · rw [← hdrop, List.takeWhile_append_dropWhile]
      · intro hmem
        simpa using List.mem_takeWhile_imp hmem
      · cases h
        simp only [beq_iff_eq]
  · rename_i _ hne
    exact absurd rfl (hne cs)

end

lemma brace_not_mem {name : List Char} (h : Xml.isPlainName name = true) : '\x7d' ∉ name := by
  intro hmem
  cases name with
  | nil => cases hmem
  | cons c rest =>
    simp only [Xml.isPlainName, Bool.and_eq_true, List.all_eq_true] at h
    obtain rfl | hmem := List.mem_cons.mp hmem
    · exact absurd h.1 (by decide)
    · exact absurd (h.2 _ hmem) (by decide)

lemma not_braced_of_plain {name : String} (h : isPlainNameText name = true) (rest : List Char) :
    name.toList ≠ '\x7b' :: rest := by
  intro heq
  unfold isPlainNameText at h
  rw [heq, Xml.isPlainName] at h
  exact absurd h (by simp [show Xml.isNameStart '\x7b' = false by decide])

lemma not_braced_of_reference {uri : String} (h : Uri.isReference uri = true) (rest : List Char) :
    uri.toList ≠ '\x7b' :: rest := by
  intro heq
  unfold Uri.isReference at h
  rw [heq] at h
  have habsolute : Uri.isAbsolute ('\x7b' :: rest) = false := rfl
  have hrelative : Uri.isRelative ('\x7b' :: rest) = false := rfl
  rw [habsolute, hrelative] at h
  cases h

/-- A namespace that a profile can have: a reference that is not empty. -/
def IsNamespace (uri : String) : Prop := uri ≠ "" ∧ Uri.isReference uri = true

/-- An element is in the namespace of the profile, under its own name. -/
theorem tagOf_eq {uri : Option String} {name : String} {r : Option String × String}
    (huri : ∀ given, uri = some given → IsNamespace given) (hname : isPlainNameText name = true)
    (h : tagOf uri name = .ok r) : r = (uri, name) := by
  unfold tagOf at h
  extract_lets finish at h
  have hfinish (written : String) (h : finish written = .ok r) :
      splitTag written = .ok r ∧ isPlainNameText r.2 = true := by
    obtain ⟨⟨space, part⟩, hsplit, h⟩ := bind_eq_ok h
    dsimp only at h
    split at h
    · rename_i hpart
      cases h
      exact ⟨hsplit, hpart⟩
    · cases h
  cases uri with
  | none =>
    obtain ⟨hsplit, -⟩ := hfinish name h
    exact splitTag_bare hsplit (not_braced_of_plain hname)
  | some given =>
    obtain ⟨hne, href⟩ := huri given rfl
    obtain ⟨⟨inner, outer⟩, hgiven, h⟩ := bind_eq_ok h
    cases splitTag_bare hgiven (not_braced_of_reference href)
    obtain ⟨_, -, h⟩ := bind_eq_ok h
    rw [hname] at h
    obtain ⟨hsplit, hpart⟩ := hfinish _ h
    have hwritten : "\x7b" ++ given ++ "\x7d" ++ name =
        String.ofList ('\x7b' :: (given.toList ++ '\x7d' :: name.toList)) := by
      apply String.toList_injective
      simp [String.toList_append]
    rw [Option.getD_none, hwritten] at hsplit
    obtain ⟨space, part, hcut, hspace, rfl⟩ := splitTag_braced hsplit
    have hbrace : '\x7d' ∉ part := by
      rw [isPlainNameText, String.toList_ofList] at hpart
      exact brace_not_mem hpart
    obtain ⟨rfl, -, rfl⟩ := (List.append_cons_inj_of_notMem hspace hbrace).mp hcut.symm
    simp only [String.ofList_toList, hne, if_false]

end SchemaLoom.Sample
