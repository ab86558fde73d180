import SchemaLoom.Proofs.Profile.Range

/-! Ranges are a semilattice: two of them have a least upper bound, which is what combining them
gives, so that neither the order nor the number of times in which ranges are combined counts. -/
namespace SchemaLoom.Profile

/-- An upper end is not above another one. -/
def Bound.Within : Bound → Bound → Prop
  | _, .unbounded => True
  | .finite a, .finite b => a ≤ b
  | .unbounded, .finite _ => False

lemma Bound.join_within_iff {a a' b : Bound} : (a.join a').Within b ↔ a.Within b ∧ a'.Within b := by
  cases b with
  | unbounded => simp [Within]
  | finite y =>
    cases a with
    | unbounded => simp [join, Within]
    | finite x =>
      cases a' with
      | unbounded => simp [join, Within]
      | finite x' => exact Int.max_le

lemma Bound.Within.antisymm {a b : Bound} (hab : a.Within b) (hba : b.Within a) : a = b := by
  cases a with
  | unbounded =>
    cases b with
    | unbounded => rfl
    | finite y => exact hab.elim
  | finite x =>
    cases b with
    | unbounded => exact hba.elim
    | finite y => rw [Int.le_antisymm hab hba]

namespace Range

/-- A range lies within another one by its ends. -/
structure Within (r b : Range) : Prop where
  lower : b.lower ≤ r.lower
  upper : r.upper.Within b.upper

lemma Within.refl (r : Range) : r.Within r := by
  refine ⟨Int.le_refl _, ?_⟩
  cases r.upper <;> simp [Bound.Within]

lemma Within.antisymm {a b : Range} (hab : a.Within b) (hba : b.Within a) : a = b := by
  have hlower : a.lower = b.lower := Int.le_antisymm hba.lower hab.lower
  have hupper : a.upper = b.upper := hab.upper.antisymm hba.upper
  cases a
  cases b
  rw [Range.mk.injEq]
  exact ⟨hlower, hupper⟩

/-- Ranges that lie within the same ranges are the same. -/
lemma eq_of_within_iff {a b : Range} (h : ∀ c, a.Within c ↔ b.Within c) : a = b :=
  Within.antisymm ((h b).mpr (.refl b)) ((h a).mp (.refl a))

/-- The combined range is the least one that both lie within. -/
lemma combine_within_iff {a a' b : Range} : (a.combine a').Within b ↔ a.Within b ∧ a'.Within b := by
  constructor
  · rintro ⟨hlower, hupper⟩
    obtain ⟨ha, ha'⟩ := Bound.join_within_iff.mp hupper
    simp only [combine] at hlower
    exact ⟨⟨by omega, ha⟩, ⟨by omega, ha'⟩⟩
  · rintro ⟨⟨hlower, hupper⟩, ⟨hlower', hupper'⟩⟩
    refine ⟨?_, Bound.join_within_iff.mpr ⟨hupper, hupper'⟩⟩
    simp only [combine]
    omega

theorem combine_comm (a b : Range) : a.combine b = b.combine a :=
  eq_of_within_iff fun c => by rw [combine_within_iff, combine_within_iff, and_comm]

theorem combine_assoc (a b c : Range) : (a.combine b).combine c = a.combine (b.combine c) :=
  eq_of_within_iff fun d => by simp only [combine_within_iff, and_assoc]

theorem combine_self (a : Range) : a.combine a = a :=
  eq_of_within_iff fun c => by rw [combine_within_iff, and_self]

/-- The range around some lies within another one just if all of them do. -/
theorem combineAll_within_iff {first : Range} {others : List Range} {b : Range} :
    (combineAll first others).Within b ↔ ∀ r ∈ first :: others, r.Within b := by
  induction others generalizing first with
  | nil => simp [combineAll]
  | cons r rest ih =>
    have hrest : (combineAll (first.combine r) rest).Within b ↔ _ := ih
    rw [List.forall_mem_cons, combine_within_iff, and_assoc] at hrest
    rw [List.forall_mem_cons, List.forall_mem_cons]
    exact hrest

/-- The range around some depends on which they are, not on their order nor on how often they
come. -/
theorem combineAll_congr {first first' : Range} {others others' : List Range}
    (h : ∀ r, r ∈ first :: others ↔ r ∈ first' :: others') :
    combineAll first others = combineAll first' others' :=
  eq_of_within_iff fun c => by simp only [combineAll_within_iff, h]

end Range

lemma Siblings.range_congr {α : Type} {f : α → Range} {g k : Siblings α}
    (h : ∀ r, r ∈ g.members.map f ↔ r ∈ k.members.map f) : g.range f = k.range f :=
  Range.combineAll_congr h

namespace Range

/-- Combining is commutative, associative and idempotent. What it makes of several ranges is the
same for lists with the same members, and goes from the least lower end to the greatest upper
end. -/
theorem combine_semilattice :
    (∀ a b : Range, a.combine b = b.combine a) ∧
    (∀ a b c : Range, (a.combine b).combine c = a.combine (b.combine c)) ∧
    (∀ a : Range, a.combine a = a) ∧
    (∀ (first first' : Range) (others others' : List Range),
      (∀ r, r ∈ first :: others ↔ r ∈ first' :: others') →
        combineAll first others = combineAll first' others') ∧
    ∀ (first : Range) (others : List Range), combineAll first others = span (first :: others) :=
  ⟨combine_comm, combine_assoc, combine_self, fun _ _ _ _ h => combineAll_congr h,
    combineAll_eq_span⟩

/-- The last of these ranges has its ends in the wrong order. -/
theorem shuffled_combined :
    (∀ r : Range, r ∈ [⟨1, .finite 3⟩, ⟨0, .finite 7⟩, ⟨5, .finite (-2)⟩] ↔
      r ∈ [⟨5, .finite (-2)⟩, ⟨1, .finite 3⟩, ⟨5, .finite (-2)⟩, ⟨0, .finite 7⟩]) ∧
    combineAll ⟨1, .finite 3⟩ [⟨0, .finite 7⟩, ⟨5, .finite (-2)⟩] =
      combineAll ⟨5, .finite (-2)⟩ [⟨1, .finite 3⟩, ⟨5, .finite (-2)⟩, ⟨0, .finite 7⟩] ∧
    combineAll ⟨1, .finite 3⟩ [⟨0, .finite 7⟩, ⟨5, .finite (-2)⟩] = ⟨0, .finite 7⟩ := by
  have hmembers : ∀ r : Range, r ∈ [⟨1, .finite 3⟩, ⟨0, .finite 7⟩, ⟨5, .finite (-2)⟩] ↔
      r ∈ [⟨5, .finite (-2)⟩, ⟨1, .finite 3⟩, ⟨5, .finite (-2)⟩, ⟨0, .finite 7⟩] := by
    intro r
    simp only [List.mem_cons, List.not_mem_nil]
    grind
  obtain ⟨-, -, -, hcongr, hspan⟩ := combine_semilattice
  exact ⟨hmembers, hcongr _ _ _ _ hmembers, hspan _ _⟩

end Range
end SchemaLoom.Profile
