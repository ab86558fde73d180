import SchemaLoom.Proofs.Xml.Settled
import SchemaLoom.Proofs.Xsd.Validity

/-! A document stays valid by a schema without its empty texts. -/
namespace SchemaLoom.Xsd
open Xml (Node)

lemma isBlankOrElement_settled (n : Node) : isBlankOrElement n.settled = isBlankOrElement n := by
  cases n <;> rfl

lemma any_settledAll {ns : List Node} (h : ns.any (·.tag?.isSome) = false) :
    (Node.settledAll ns).any (·.tag?.isSome) = false := by
  rw [List.any_eq_false] at h ⊢
  intro m hm
  obtain ⟨n, hn, -, rfl⟩ := Node.mem_settledAll.mp hm
  rw [Node.tag_settled]
  exact h n hn

/-- Empty texts add nothing to the others. -/
lemma join_settledAll (ns : List Node) :
    String.join ((Node.settledAll ns).filterMap fun
      | .text chars => some chars
      | _ => none) =
    String.join (ns.filterMap fun
      | .text chars => some chars
      | _ => none) := by
  induction ns with
  | nil => rfl
  | cons n ns ih =>
    rw [Node.settledAll]
    cases n with
    | text chars =>
      by_cases hempty : chars = ""
      · simp [Node.isEmptyText, hempty, ih]
      · simp [Node.isEmptyText, Node.settled, hempty, ih]
    | element tag bindings attributes content =>
      simpa [Node.isEmptyText, Node.settled] using ih
    | instruction target => simpa [Node.isEmptyText, Node.settled] using ih

lemma textIn_settled {n : Node} {text : String} (h : textIn? n = some text) :
    textIn? n.settled = some text := by
  unfold textIn? at h ⊢
  split at h
  · cases h
  · rename_i hnone
    rw [Node.content_settled, any_settledAll (Bool.eq_false_iff.mpr hnone),
      if_neg Bool.false_ne_true]
    exact (congrArg some (join_settledAll n.content)).trans h

lemma all_settledAll {ns : List Node} (h : ns.all isBlankOrElement = true) :
    (Node.settledAll ns).all isBlankOrElement = true := by
  rw [List.all_eq_true] at h ⊢
  intro m hm
  obtain ⟨n, hn, -, rfl⟩ := Node.mem_settledAll.mp hm
  rw [isBlankOrElement_settled]
  exact h n hn

lemma filter_settledAll (ns : List Node) : (Node.settledAll ns).filter (·.tag?.isSome) =
    (ns.filter (·.tag?.isSome)).map Node.settled := by
  rw [Node.settledAll_eq, List.filter_map, List.filter_filter]
  refine congrArg (List.map Node.settled) (List.filter_congr fun n _ => ?_)
  change (n.settled.tag?.isSome && !n.isEmptyText) = n.tag?.isSome
  rw [Node.tag_settled]
  cases htag : n.tag?.isSome with
  | true => simp [Node.isEmptyText_of_tag htag]
  | false => rfl

lemma elementsIn_settled {n : Node} {elements : List Node} (h : elementsIn? n = some elements) :
    elementsIn? n.settled = some (elements.map Node.settled) := by
  unfold elementsIn? at h ⊢
  split at h
  · rename_i hall
    cases h
    rw [Node.content_settled, all_settledAll hall, filter_settledAll, if_pos rfl]
  · cases h

lemma isNamed_settled {uri : Option String} {name : String} {n : Node} (h : IsNamed uri name n) :
    IsNamed uri name n.settled := by
  unfold IsNamed
  rw [Node.tag_settled]
  exact h

section
variable {schema : Schema}

mutual
theorem Admits.settled {c : Content} {n : Node} :
    Admits schema c n → Admits schema c n.settled
  | .builtin ha ht hv => .builtin (by rwa [Node.attributes_settled]) (textIn_settled ht) hv
  | .restricted ha ht hv => .restricted (by rwa [Node.attributes_settled]) (textIn_settled ht) hv
  | .extended ha ht hv => .extended (by rwa [Node.attributes_settled]) (textIn_settled ht) hv
  | .named ht h => .named ht h.settled
theorem AdmitsBody.settled {b : TypeBody} {n : Node} :
    AdmitsBody schema b n → AdmitsBody schema b n.settled
  | .restricted ha ht hv => .restricted (by rwa [Node.attributes_settled]) (textIn_settled ht) hv
  | .extended ha ht hv => .extended (by rwa [Node.attributes_settled]) (textIn_settled ht) hv
  | .sequence ha he h =>
    .sequence (by rwa [Node.attributes_settled]) (elementsIn_settled he) h.settled
theorem AdmitsAll.settled {particles : List Particle} {ns : List Node} :
    AdmitsAll schema particles ns → AdmitsAll schema particles (ns.map Node.settled)
  | .nil => .nil
  | .cons hrange hname h hs => by
    rw [List.map_append]
    refine .cons (by rwa [List.length_map]) (fun m hm => ?_) (fun m hm => ?_) hs.settled
    · obtain ⟨n, hn, rfl⟩ := List.mem_map.mp hm
      exact isNamed_settled (hname n hn)
    · obtain ⟨n, hn, rfl⟩ := List.mem_map.mp hm
      exact (h n hn).settled
end

/-- A valid document is valid without its empty texts. -/
theorem IsValid.settled {root : Node} (h : IsValid schema root) : IsValid schema root.settled := by
  obtain ⟨name, type, hmem, hname, hadmits⟩ := h
  exact ⟨name, type, hmem, isNamed_settled hname, hadmits.settled⟩

end
end SchemaLoom.Xsd
