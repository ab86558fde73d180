import Mathlib.Data.List.TakeWhile
import SchemaLoom.Proofs.Profile.Declaration
import SchemaLoom.Proofs.Xml.Tree
import SchemaLoom.Profile.Document

/-! The profile that a document holds: its root declarations are the elements of one tag below one
element of the document, and its namespace is not empty where it is given. -/
namespace SchemaLoom.Profile
open Xml (Node)

lemma strip_ne_empty {text : String} (h : Text.isBlankText text = false) :
    Text.strip text ≠ "" := by
  intro hstrip
  have hnil : ((text.toList.dropWhile Text.isBlank).reverse.dropWhile Text.isBlank).reverse = [] :=
    String.ofList_injective (by simpa [Text.strip, Text.trimBy] using hstrip)
  rw [List.reverse_eq_nil_iff, List.dropWhile_eq_nil_iff] at hnil
  have hall : ¬∀ c ∈ text.toList, Text.isBlank c := by simpa [Text.isBlankText] using h
  rw [← List.dropWhile_eq_nil_iff] at hall
  have hhead := List.head_dropWhile_not Text.isBlank hall
  rw [hnil _ (List.mem_reverse.mpr (List.head_mem hall))] at hhead
  cases hhead

lemma filled_not_blank {n : Node} {names : List String} {value : String}
    (h : filled? n names = some value) : Text.isBlankText value = false := by
  obtain ⟨name, -, hname⟩ := List.exists_of_findSome?_eq_some h
  simpa using (Option.filter_eq_some_iff.mp hname).2

/-- A namespace that is given is not empty. -/
theorem uri_ne_empty {document : Node} {source : Source}
    (h : Source.ofDocument document = .ok source) :
    source.uri ≠ some "" := by
  unfold Source.ofDocument at h
  split at h
  · cases h
  · split at h
    · cases h
    · cases h
      intro hu
      obtain ⟨value, hvalue, hstrip⟩ := Option.map_eq_some_iff.mp hu
      exact strip_ne_empty (filled_not_blank hvalue) hstrip

lemma ofNodes_eq (content : List Node) : Declaration.ofNodes content =
    (content.filter (·.localName? == some elementTag)).map Declaration.ofNode := by
  induction content with
  | nil => rfl
  | cons n rest ih =>
    rw [Declaration.ofNodes, List.filter_cons]
    split
    · rw [List.map_cons, ih]
    · exact ih

@[simp] theorem children_ofNode (n : Node) : (Declaration.ofNode n).children =
    (n.childrenNamed elementTag).map Declaration.ofNode := by
  cases n with
  | element tag bindings attributes content =>
    rw [Declaration.ofNode, Declaration.children, ofNodes_eq]
    rfl
  | text chars => rfl
  | instruction target => rfl

@[simp] theorem facts_ofNode (n : Node) : (Declaration.ofNode n).facts = .ofNode n := by
  cases n <;> rfl

@[simp] theorem name_ofNode (n : Node) : (Declaration.ofNode n).name = nameOf n := by
  rw [Declaration.name, facts_ofNode]
  rfl

/-- The groups of the elements in an element, as declarations, are those of the elements that
declare them. -/
lemma groups_ofNode (n : Node) : (Declaration.ofNode n).groups =
    (Siblings.byName nameOf (n.childrenNamed elementTag)).map
    (Siblings.map Declaration.ofNode) := by
  have hname : Declaration.name ∘ Declaration.ofNode = nameOf := funext name_ofNode
  rw [Declaration.groups, children_ofNode, Siblings.byName_map, hname]

/-- The root declarations are those right below one element. -/
theorem roots_profile (source : Source) : source.profile.roots =
    (source.holder.childrenNamed elementTag).map Declaration.ofNode := children_ofNode _

lemma profile_ofDocument {document : Node} {source : Source}
    (h : Source.ofDocument document = .ok source) :
    ElementProfile.ofDocument document = .ok source.profile := by
  rw [ElementProfile.ofDocument, h]
  rfl

/-- Every declaration of a profile is read from an element, which has what passes from elements to
those right below them. -/
theorem exists_node_of_has {P : Node → Prop}
    (hbelow : ∀ n, P n → ∀ k ∈ n.childrenNamed elementTag, P k) {source : Source}
    (hholder : P source.holder) {d : Declaration}
    (hd : (Forest.ofRoots source.profile.roots).Has d) : ∃ n, P n ∧ d = .ofNode n := by
  refine Forest.has_induction (P := fun d => ∃ n, P n ∧ d = .ofNode n) (fun d hd => ?_)
    (fun d hd e he => ?_) hd
  · rw [roots_profile] at hd
    obtain ⟨n, hn, rfl⟩ := List.mem_map.mp hd
    exact ⟨n, hbelow _ hholder n hn, rfl⟩
  · obtain ⟨n, hn, rfl⟩ := hd
    rw [children_ofNode] at he
    obtain ⟨k, hk, rfl⟩ := List.mem_map.mp he
    exact ⟨k, hbelow n hn k hk, rfl⟩

/-- The declarations of a forest are elements of a document. -/
def Forest.ReadFrom (F : Forest) (document : Node) : Prop :=
  ∀ d, F.Has d → ∃ n ∈ document.walk, d = .ofNode n

lemma holder_mem_walk {document : Node} {source : Source}
    (h : Source.ofDocument document = .ok source) :
    source.holder ∈ document.walk := by
  unfold Source.ofDocument at h
  split at h
  · cases h
  · rename_i profile hprofile
    split at h
    · cases h
    · rename_i holder hholder
      cases h
      exact Node.mem_walk_trans (List.mem_of_find?_eq_some hprofile)
        (List.mem_of_find?_eq_some hholder)

/-- The declarations of a profile are elements of its document. -/
theorem readFrom_profile {document : Node} {source : Source}
    (h : Source.ofDocument document = .ok source) :
    (Forest.ofRoots source.profile.roots).ReadFrom document := by
  intro d hd
  refine exists_node_of_has (P := (· ∈ document.walk)) (fun n hn k hk => ?_) (holder_mem_walk h) hd
  have hbelow : k ∈ n.walk :=
    Node.mem_walk_iff.mpr (.inr ⟨k, (List.mem_filter.mp hk).1, k.mem_walk_self⟩)
  exact Node.mem_walk_trans hn hbelow

end SchemaLoom.Profile
