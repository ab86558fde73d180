import SchemaLoom.Proofs.Xsd.Names

/-! Names are given one after another: the search for a free one ends, no name is given twice, and
of the variants of a preferred name none is left out. -/
namespace SchemaLoom.Xsd.Registry

/-- The search for a free name, from a name and the number that is next. After a name that is taken
comes the preferred one with that number behind it. Nothing bounds the search. -/
inductive Seeks (used : List String) (preferred : String) : String → Nat → String → Prop
  | free {name : String} {next : Nat} (h : name ∉ used) : Seeks used preferred name next name
  | taken {name found : String} {next : Nat} (h : name ∈ used)
    (rest : Seeks used preferred (preferred ++ Number.natText next) (next + 1) found) :
    Seeks used preferred name next found

section
variable {used : List String} {preferred name found found' : String} {next k : Nat}

lemma Seeks.unique (h : Seeks used preferred name next found)
    (h' : Seeks used preferred name next found') :
    found = found' := by
  induction h with
  | free hfree =>
    cases h' with
    | free _ => rfl
    | taken htaken _ => exact absurd htaken hfree
  | taken htaken _ ih =>
    cases h' with
    | free hfree => exact absurd htaken hfree
    | taken _ rest => exact ih rest

/-- From any variant up to the first free one the search ends at that one. -/
lemma seeks_of_first (htaken : ∀ j < k, numbered preferred j ∈ used)
    (hfree : numbered preferred k ∉ used) (steps : Nat) (h : steps ≤ k) :
    Seeks used preferred (numbered preferred (k - steps)) (k - steps + 1)
    (numbered preferred k) := by
  induction steps with
  | zero => exact .free hfree
  | succ steps ih =>
    have hnext : k - steps = k - (steps + 1) + 1 := by omega
    have hrest := ih (by omega)
    rw [hnext] at hrest
    exact .taken (htaken _ (by omega)) hrest

/-- The search for a free name ends, with the name that is chosen. -/
theorem seeks_iff : Seeks used preferred preferred 1 found ↔ found = freeName used preferred := by
  obtain ⟨k, hname, hfree, htaken⟩ := freeName_spec used preferred
  have hseeks := seeks_of_first htaken hfree k (Nat.le_refl k)
  rw [Nat.sub_self, ← hname] at hseeks
  exact ⟨fun h => h.unique hseeks, fun h => h ▸ hseeks⟩

end

/-- The answer to a request for a name: the search for a free name ends with it, it is the first
variant of the preferred name that is free, and it is the only thing that is taken. -/
structure Gives (r : Registry) (preferred name : String) (r' : Registry) : Prop where
  ends : ∀ found, Seeks r.usedNames preferred preferred 1 found ↔ found = name
  fresh : name ∉ r.usedNames
  first : ∃ k, name = numbered preferred k ∧ ∀ j < k, numbered preferred j ∈ r.usedNames
  grows : r' = { r with usedNames := r.usedNames ++ [name] }

theorem gives_allocate (r : Registry) (preferred : String) :
    r.Gives preferred (r.allocate preferred).1 (r.allocate preferred).2 where
  ends _ := seeks_iff
  fresh := freeName_not_mem r.usedNames preferred
  first := by
    obtain ⟨k, hname, -, htaken⟩ := freeName_spec r.usedNames preferred
    exact ⟨k, hname, htaken⟩
  grows := rfl

/-- Names for requests one after another, and the registry after them. -/
def allocateAll (r : Registry) : List String → List String × Registry
  | [] => ([], r)
  | preferred :: rest =>
    let (name, r) := r.allocate preferred
    let (names, r) := r.allocateAll rest
    (name :: names, r)

section
variable {r : Registry} {asked : List String}

theorem usedNames_allocateAll (r : Registry) (asked : List String) :
    (r.allocateAll asked).2.usedNames = r.usedNames ++ (r.allocateAll asked).1 := by
  induction asked generalizing r with
  | nil => exact (List.append_nil _).symm
  | cons preferred rest ih =>
    change ((r.allocate preferred).2.allocateAll rest).2.usedNames = _
    rw [ih, (gives_allocate r preferred).grows]
    exact List.append_assoc _ _ _

/-- With every request one variant more of its name is taken. -/
theorem TakenTo.allocateAll {names : String → Prop} {count : String → Nat}
    (h : r.TakenTo names count) (hnames : ∀ a b, names a → names b → ¬ExtendsByDigits a b)
    (hasked : ∀ preferred ∈ asked, names preferred) :
    (r.allocateAll asked).2.TakenTo names fun name => count name + asked.count name := by
  induction asked generalizing r count with
  | nil => exact h
  | cons preferred rest ih =>
    obtain ⟨hpreferred, hrest⟩ := List.forall_mem_cons.mp hasked
    have hnext := ih (h.allocate hnames hpreferred).2 hrest
    refine fun name hname k => (hnext name hname k).trans ?_
    simp only [List.count_cons, beq_iff_eq, Nat.add_assoc, Nat.add_comm (rest.count name)]

/-- The names that are given for requests to an empty registry. -/
def given (asked : List String) : List String := (empty.allocateAll asked).1

/-- The registry after requests to an empty one. -/
def after (asked : List String) : Registry := (empty.allocateAll asked).2

/-- After any requests the next one is answered as it should be, with a name that was not given
before. Where no name that is asked for is another one with digits behind it, as is so for the names
of types, it is numbered by the requests for the same name before it. -/
theorem allocation_fresh (asked : List String) (preferred : String) :
    (after asked).Gives preferred ((after asked).allocate preferred).1
    ((after asked).allocate preferred).2 ∧
    (after asked).usedNames = given asked ∧ ((after asked).allocate preferred).1 ∉ given asked ∧
    ((∀ a ∈ preferred :: asked, ∀ b ∈ preferred :: asked, ¬ExtendsByDigits a b) →
      ((after asked).allocate preferred).1 = numbered preferred (asked.count preferred)) ∧
    ∀ a b, ¬ExtendsByDigits (typeNameBase a) (typeNameBase b) := by
  have hgives := gives_allocate (after asked) preferred
  have hused : (after asked).usedNames = given asked := usedNames_allocateAll empty asked
  refine ⟨hgives, hused, hused ▸ hgives.fresh, fun hapart => ?_,
    fun a b => not_extendsByDigits_typeNameBase a _⟩
  have hempty : empty.TakenTo (· ∈ preferred :: asked) fun _ => 0 := by simp [TakenTo, empty]
  have hnames : ∀ a b, a ∈ preferred :: asked → b ∈ preferred :: asked → ¬ExtendsByDigits a b :=
    fun a b ha hb => hapart a ha b hb
  have htaken : (after asked).TakenTo (· ∈ preferred :: asked) _ :=
    hempty.allocateAll hnames fun p hp => List.mem_cons_of_mem preferred hp
  have hname := (htaken.allocate hnames List.mem_cons_self).1
  simpa only [Nat.zero_add] using hname

/-- Requests for the types of three elements; those of `item` and `Item` ask for the same name. -/
theorem third_item_numbered :
    (∀ a ∈ ["ItemType", "ItemType", "OrderType", "ItemType"],
      ∀ b ∈ ["ItemType", "ItemType", "OrderType", "ItemType"], ¬ExtendsByDigits a b) ∧
    ((after ["ItemType", "OrderType", "ItemType"]).allocate "ItemType").1 = "ItemType2" := by
  have hitem : typeNameBase "item" = "ItemType" := by decide +kernel
  have horder : typeNameBase "order" = "OrderType" := by decide +kernel
  have hapart : ∀ a ∈ ["ItemType", "ItemType", "OrderType", "ItemType"],
      ∀ b ∈ ["ItemType", "ItemType", "OrderType", "ItemType"], ¬ExtendsByDigits a b := by
    intro a ha b _
    have hname : ∃ name, a = typeNameBase name := by
      simp only [List.mem_cons, List.not_mem_nil, or_false] at ha
      obtain rfl | rfl | rfl | rfl := ha
      · exact ⟨"item", hitem.symm⟩
      · exact ⟨"item", hitem.symm⟩
      · exact ⟨"order", horder.symm⟩
      · exact ⟨"item", hitem.symm⟩
    obtain ⟨name, rfl⟩ := hname
    exact not_extendsByDigits_typeNameBase name b
  obtain ⟨-, -, -, hnumbered, -⟩ :=
    allocation_fresh ["ItemType", "OrderType", "ItemType"] "ItemType"
  exact ⟨hapart, (hnumbered hapart).trans (by decide +kernel)⟩

/-- A name that is a variant of another one takes that variant away. -/
example : given ["ItemType1", "ItemType", "ItemType"] = ["ItemType1", "ItemType", "ItemType2"] := by
  decide +kernel

end
end SchemaLoom.Xsd.Registry
