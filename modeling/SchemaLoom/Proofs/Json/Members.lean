import Mathlib.Data.List.Forall2
import Mathlib.Data.List.Nodup
import SchemaLoom.Json.Value

/-! Members of an object: setting them one after the other keeps each name once, and keeps objects
of the same names together. -/
namespace SchemaLoom.Json

section
variable {α β : Type}

theorem names_setMember (members : List (String × α)) (name : String) (value : α) :
    (setMember members name value).map Prod.fst =
      if name ∈ members.map Prod.fst then members.map Prod.fst
      else members.map Prod.fst ++ [name] := by
  have hany : members.any (·.1 == name) = true ↔ name ∈ members.map Prod.fst := by
    simp only [List.any_eq_true, beq_iff_eq, List.mem_map]
  unfold setMember
  simp only [hany]
  split
  · rw [List.map_map]
    apply List.map_congr_left
    intro m _
    by_cases h : m.1 = name
    · simp [h]
    · simp [h]
  · simp

theorem mem_names_ofMembers {pairs : List (String × α)} {name : String} :
    name ∈ (ofMembers pairs).map Prod.fst ↔ name ∈ pairs.map Prod.fst := by
  have h (known : List (String × α)) :
      name ∈
        (pairs.foldl (fun members (n, value) => setMember members n value) known).map Prod.fst ↔
        name ∈ known.map Prod.fst ∨ name ∈ pairs.map Prod.fst := by
    induction pairs generalizing known with
    | nil => simp
    | cons p pairs ih =>
      rw [List.foldl_cons, ih, names_setMember, List.map_cons, List.mem_cons]
      split
      · rename_i hmem
        constructor
        · exact fun h => h.imp_right .inr
        · rintro (h | rfl | h)
          · exact .inl h
          · exact .inl hmem
          · exact .inr h
      · rw [List.mem_append, List.mem_singleton, or_assoc]
  rw [ofMembers, h]
  simp

theorem nodup_names_ofMembers (pairs : List (String × α)) :
    ((ofMembers pairs).map Prod.fst).Nodup := by
  have h {known : List (String × α)} (hk : (known.map Prod.fst).Nodup) :
      ((pairs.foldl (fun members (n, value) => setMember members n value) known).map
        Prod.fst).Nodup := by
    induction pairs generalizing known with
    | nil => exact hk
    | cons p pairs ih =>
      refine ih ?_
      rw [names_setMember]
      split
      · exact hk
      · rename_i hnew
        rw [← List.concat_eq_append]
        exact hk.concat hnew
  exact h List.nodup_nil

/-- Members that have each name once are set in their order. -/
theorem ofMembers_eq_self {members : List (String × α)} (h : (members.map Prod.fst).Nodup) :
    ofMembers members = members := by
  have hfold (known : List (String × α)) (hk : ((known ++ members).map Prod.fst).Nodup) :
      members.foldl (fun members (n, value) => setMember members n value) known =
        known ++ members := by
    clear h
    induction members generalizing known with
    | nil => simp
    | cons m members ih =>
      obtain ⟨name, value⟩ := m
      have hnew : known.any (·.1 == name) = false := by
        rw [List.map_append, List.nodup_append] at hk
        rw [List.any_eq_false]
        intro other hother heq
        exact hk.2.2 _ (List.mem_map_of_mem hother) name (by simp) (beq_iff_eq.mp heq)
      have hset : setMember known name value = known ++ [(name, value)] := by
        rw [setMember, hnew]
        rfl
      simp only [List.foldl_cons, hset]
      rw [ih _ (by rwa [List.append_assoc]), List.append_assoc]
      rfl
  exact hfold [] h

theorem exists_lookup {members : List (String × α)} {name : String}
    (h : name ∈ members.map Prod.fst) : ∃ value, members.lookup name = some value := by
  induction members with
  | nil => simp at h
  | cons m members ih =>
    obtain ⟨n, value⟩ := m
    by_cases hn : name = n
    · exact ⟨value, by simp [hn]⟩
    · obtain ⟨other, ho⟩ := ih (by simpa [hn] using h)
      exact ⟨other, by rw [List.lookup_cons, beq_false_of_ne hn, ho]⟩

theorem mem_of_lookup {members : List (String × α)} {name : String} {value : α}
    (h : members.lookup name = some value) : (name, value) ∈ members := by
  obtain ⟨before, after, rfl, -⟩ := List.lookup_eq_some_iff.mp h
  simp

theorem setMember_map (f : α → β) (members : List (String × α)) (name : String) (value : α) :
    setMember (members.map fun m => (m.1, f m.2)) name (f value) =
      (setMember members name value).map fun m => (m.1, f m.2) := by
  unfold setMember
  rw [List.any_map]
  simp only [Function.comp_def]
  split
  · rw [List.map_map, List.map_map]
    apply List.map_congr_left
    intro m _
    by_cases h : m.1 = name
    · simp [h]
    · simp [h]
  · simp

/-- Values may be changed before they are set or after. -/
theorem ofMembers_map (f : α → β) (pairs : List (String × α)) :
    ofMembers (pairs.map fun p => (p.1, f p.2)) = (ofMembers pairs).map fun m => (m.1, f m.2) := by
  have h (known : List (String × α)) :
      (pairs.map fun p => (p.1, f p.2)).foldl
        (fun members (name, value) => setMember members name value)
          (known.map fun m => (m.1, f m.2)) =
        (pairs.foldl (fun members (name, value) => setMember members name value) known).map
          fun m => (m.1, f m.2) := by
    induction pairs generalizing known with
    | nil => rfl
    | cons p pairs ih =>
      obtain ⟨name, value⟩ := p
      simp only [List.map_cons, List.foldl_cons, setMember_map, ih]
  exact h []

lemma mem_setMember {members : List (String × α)} {name : String} {value : α} {m : String × α}
    (h : m ∈ setMember members name value) : m = (name, value) ∨ m ∈ members := by
  unfold setMember at h
  split at h
  · obtain ⟨old, hold, rfl⟩ := List.mem_map.mp h
    split
    · exact .inl rfl
    · exact .inr hold
  · exact (List.mem_append.mp h).symm.imp_left List.mem_singleton.mp

theorem mem_of_mem_ofMembers {pairs : List (String × α)} {m : String × α}
    (h : m ∈ ofMembers pairs) :
    m ∈ pairs := by
  have hfold : ∀ (pairs known : List (String × α)),
      m ∈ pairs.foldl (fun members (name, value) => setMember members name value) known →
        m ∈ known ∨ m ∈ pairs := by
    intro pairs
    induction pairs with
    | nil => exact fun known hm => .inl hm
    | cons p pairs ih =>
      intro known hm
      obtain hm | hm := ih _ hm
      · obtain rfl | hm := mem_setMember hm
        · exact .inr List.mem_cons_self
        · exact .inl hm
      · exact .inr (List.mem_cons_of_mem _ hm)
  exact (hfold pairs [] h).elim (fun h => absurd h List.not_mem_nil) id

/-! ## Two objects of the same names -/

/-- Members of the same names in the same order whose values are related. -/
abbrev Matches (R : α → β → Prop) : List (String × α) → List (String × β) → Prop :=
  List.Forall₂ fun a b => a.1 = b.1 ∧ R a.2 b.2

variable {R : α → β → Prop} {as : List (String × α)} {bs : List (String × β)}

lemma Matches.names (h : Matches R as bs) : bs.map Prod.fst = as.map Prod.fst := by
  induction h with
  | nil => rfl
  | cons hab _ ih => rw [List.map_cons, List.map_cons, hab.1, ih]

lemma Matches.values (h : Matches R as bs) :
    List.Forall₂ R (as.map Prod.snd) (bs.map Prod.snd) := by
  rw [List.forall₂_map_left_iff, List.forall₂_map_right_iff]
  exact h.imp fun _ _ hab => hab.2

lemma Matches.lookup (h : Matches R as bs) {name : String} {a : α} {b : β}
    (ha : as.lookup name = some a) (hb : bs.lookup name = some b) : R a b := by
  induction h with
  | nil => cases ha
  | @cons p q as bs hpq _ ih =>
    obtain ⟨n, x⟩ := p
    obtain ⟨m, y⟩ := q
    obtain ⟨rfl, hr⟩ := hpq
    rw [List.lookup_cons] at ha hb
    split at ha
    · rename_i hn
      simp only [hn, Option.some.injEq] at ha hb
      exact ha ▸ hb ▸ hr
    · rename_i hn
      simp only [hn] at hb
      exact ih ha hb

lemma Matches.setMember (h : Matches R as bs) (name : String) {a : α} {b : β} (hab : R a b) :
    Matches R (Json.setMember as name a) (Json.setMember bs name b) := by
  have hany : as.any (·.1 == name) = bs.any (·.1 == name) := by
    induction h with
    | nil => rfl
    | cons hpq _ ih => rw [List.any_cons, List.any_cons, hpq.1, ih]
  unfold Json.setMember
  rw [hany]
  split
  · unfold Matches
    rw [List.forall₂_map_left_iff, List.forall₂_map_right_iff]
    refine h.imp fun p q hpq => ?_
    rw [hpq.1]
    split
    · exact ⟨rfl, hab⟩
    · exact hpq
  · exact List.rel_append h (.cons ⟨rfl, hab⟩ .nil)

/-- Objects that are made of related members have related members. -/
theorem Matches.ofMembers (h : Matches R as bs) :
    Matches R (Json.ofMembers as) (Json.ofMembers bs) := by
  have hfold {known : List (String × α)} {known' : List (String × β)}
      (hk : Matches R known known') :
      Matches R (as.foldl (fun members (n, value) => Json.setMember members n value) known)
        (bs.foldl (fun members (n, value) => Json.setMember members n value) known') := by
    induction h generalizing known known' with
    | nil => exact hk
    | @cons p q as bs hpq _ ih =>
      obtain ⟨name, a⟩ := p
      obtain ⟨name', b⟩ := q
      obtain ⟨rfl, hab⟩ := hpq
      exact ih (hk.setMember name hab)
  exact hfold .nil

end
end SchemaLoom.Json
