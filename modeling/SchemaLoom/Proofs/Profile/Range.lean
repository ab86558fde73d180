import Mathlib.Tactic.Lemma
import SchemaLoom.Profile.Siblings

/-! The range around several ranges: from the least lower end to the greatest upper end. -/
namespace SchemaLoom.Profile

/-- The upper end as a number, unless there is no limit. -/
def Bound.finite? : Bound → Option Int
  | finite n => some n
  | unbounded => none

namespace Range

/-- The range from the least lower end of some ranges to their greatest upper end, which is no limit
as soon as one of them has none. -/
def span (rs : List Range) : Range where
  lower := (rs.map lower).min?.getD 0
  upper := if rs.any isUnbounded then .unbounded else .finite
    ((rs.filterMap (·.upper.finite?)).max?.getD 0)

lemma span_pair (a b : Range) (rest : List Range) :
    span (a.combine b :: rest) = span (a :: b :: rest) := by
  have hlower : (span (a.combine b :: rest)).lower = (span (a :: b :: rest)).lower := rfl
  have hupper : (span (a.combine b :: rest)).upper = (span (a :: b :: rest)).upper := by
    obtain ⟨la, _ | _⟩ := a
    · obtain ⟨lb, _ | _⟩ := b
      · rfl
      · simp [span, combine, Bound.join, isUnbounded]
    · simp [span, combine, Bound.join, isUnbounded]
  cases hl : span (a.combine b :: rest)
  cases hr : span (a :: b :: rest)
  rw [hl, hr] at hlower hupper
  rw [Range.mk.injEq]
  exact ⟨hlower, hupper⟩

theorem combineAll_eq_span (first : Range) (others : List Range) :
    combineAll first others = span (first :: others) := by
  induction others generalizing first with
  | nil => obtain ⟨l, _ | _⟩ := first <;> simp [combineAll, span, isUnbounded, Bound.finite?]
  | cons r rest ih => rw [← span_pair, ← ih]; rfl

/-- No end of a range is below zero, and the upper one is not below the lower one. -/
structure Proper (r : Range) : Prop where
  lower : 0 ≤ r.lower
  upper : ∀ most, r.upper = .finite most → r.lower ≤ most

lemma Proper.combine {a b : Range} (ha : a.Proper) (hb : b.Proper) : (a.combine b).Proper := by
  obtain ⟨la, ua⟩ := a
  obtain ⟨lb, ub⟩ := b
  obtain ⟨ha, hua⟩ := ha
  obtain ⟨hb, hub⟩ := hb
  refine ⟨by simp only [Range.combine] at ha hb ⊢; omega, fun most hmost => ?_⟩
  cases ua with
  | unbounded => cases hmost
  | finite x =>
    cases ub with
    | unbounded => cases hmost
    | finite y =>
      cases hmost
      have hx := hua x rfl
      have hy := hub y rfl
      simp only [Range.combine] at hx hy ⊢
      omega

theorem proper_combineAll {first : Range} {others : List Range} (hfirst : first.Proper)
    (hothers : ∀ r ∈ others, r.Proper) : (combineAll first others).Proper :=
  List.foldlRecOn others combine hfirst fun _ h r hr => h.combine (hothers r hr)

end Range

lemma Siblings.proper_range {α : Type} {f : α → Range} {g : Siblings α}
    (h : ∀ m ∈ g.members, (f m).Proper) :
    (g.range f).Proper := by
  obtain ⟨hfirst, hothers⟩ := List.forall_mem_cons.mp h
  exact Range.proper_combineAll hfirst (List.forall_mem_map.mpr hothers)

theorem proper_rangeOf (n : Xml.Node) : (rangeOf n).Proper := by
  have hlower : 0 ≤ minOf n := by
    unfold minOf minOfText
    split
    · split
      · omega
      · decide
    · split
      · split <;> decide
      · decide
  unfold rangeOf Range.make
  cases maxOf n with
  | unbounded => exact ⟨hlower, fun most h => by cases h⟩
  | finite upper =>
    dsimp only
    split
    · exact ⟨hlower, fun most h => by cases h⟩
    · refine ⟨hlower, fun most h => ?_⟩
      cases h
      dsimp only
      omega

end SchemaLoom.Profile
