import SchemaLoom.Proofs.Profile.Semilattice
import SchemaLoom.Proofs.Xsd.Validity

/-! The range of a group is the least one around the ranges of its members: as a set of counts it
holds theirs, and lies in every range that does. -/
namespace SchemaLoom.Profile
open Xsd (inRange)
open Xml (Node)

namespace Range

lemma Within.inRange {r b : Range} (h : r.Within b) {n : Nat} (hn : inRange r n) : inRange b n := by
  obtain ⟨lower, upper⟩ := r
  obtain ⟨lower', upper'⟩ := b
  obtain ⟨hlower, hupper⟩ := h
  obtain ⟨hleast, hmost⟩ := hn
  refine ⟨Int.le_trans hlower hleast, ?_⟩
  cases upper' with
  | unbounded => trivial
  | finite most' =>
    cases upper with
    | unbounded => exact hupper.elim
    | finite most => exact Int.le_trans hmost hupper

/-- A proper range has its lower end among its counts, so that it lies within another one by its
ends if it does by its counts. -/
lemma Proper.within {r b : Range} (hr : r.Proper) (h : ∀ n : Nat, inRange r n → inRange b n) :
    r.Within b := by
  obtain ⟨lower, upper⟩ := r
  obtain ⟨lower', upper'⟩ := b
  obtain ⟨hlower, hupper⟩ := hr
  dsimp only at hlower hupper
  obtain ⟨least, rfl⟩ := Int.eq_ofNat_of_zero_le hlower
  cases upper with
  | unbounded =>
    refine ⟨(h least ⟨Int.le_refl _, trivial⟩).1, ?_⟩
    cases upper' with
    | unbounded => trivial
    | finite most' =>
      -- A count above both ends is in the one range and not in the other one.
      have hlarge := (h (least + most'.toNat + 1) ⟨by dsimp only; omega, trivial⟩).2
      dsimp only at hlarge
      omega
  | finite most =>
    have hle := hupper most rfl
    have hmost := h most.toNat ⟨by dsimp only; omega, by dsimp only; omega⟩
    refine ⟨(h least ⟨Int.le_refl _, hle⟩).1, ?_⟩
    cases upper' with
    | unbounded => trivial
    | finite most' =>
      have hupper' := hmost.2
      change most ≤ most'
      dsimp only at hupper'
      omega

/-- A range is the least one around some others: its ends are in order, it allows every count that
one of them allows, and every range that allows all these counts allows all that it does. -/
structure IsHull (r : Range) (rs : List Range) : Prop where
  proper : r.Proper
  covers : ∀ a ∈ rs, ∀ n : Nat, inRange a n → inRange r n
  least : ∀ b, (∀ a ∈ rs, ∀ n : Nat, inRange a n → inRange b n) →
    ∀ n : Nat, inRange r n → inRange b n

theorem isHull_combineAll {first : Range} {others : List Range}
    (h : ∀ r ∈ first :: others, r.Proper) :
    (combineAll first others).IsHull (first :: others) where
  proper := by
    obtain ⟨hfirst, hothers⟩ := List.forall_mem_cons.mp h
    exact proper_combineAll hfirst hothers
  covers r hr _ hn := (combineAll_within_iff.mp (Within.refl _) r hr).inRange hn
  least b hb _ hn := (combineAll_within_iff.mpr fun r hr => (h r hr).within (hb r hr)).inRange hn

end Range

/-- Whatever the attributes of the members of a group say, the range of the group is the least one
around theirs. -/
theorem isHull_range (g : Siblings Node) : (g.range rangeOf).IsHull (g.members.map rangeOf) := by
  refine Range.isHull_combineAll fun r hr => ?_
  obtain ⟨n, -, rfl⟩ := List.mem_map.mp (show r ∈ g.members.map rangeOf from hr)
  exact proper_rangeOf n

end SchemaLoom.Profile
