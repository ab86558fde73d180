/-!
Lists whose elements are told apart.
-/
namespace SchemaLoom

/-- No element of a list is the same as one behind it, in some sense of the word. -/
def allDistinctBy (same : α → α → Bool) : List α → Bool
  | [] => true
  | a :: rest => !rest.any (same a) && allDistinctBy same rest

/-- No two elements of a list are equal. -/
def allDistinct [BEq α] (xs : List α) : Bool := allDistinctBy (· == ·) xs

theorem allDistinct_iff [BEq α] [LawfulBEq α] {xs : List α} : allDistinct xs = true ↔ xs.Nodup := by
  unfold allDistinct
  induction xs with
  | nil => simp [allDistinctBy]
  | cons a rest ih =>
    simp only [allDistinctBy, Bool.and_eq_true, ih, List.nodup_cons, Bool.not_eq_true',
      List.any_eq_false, beq_iff_eq]
    exact and_congr_left' ⟨fun h hmem => h a hmem rfl, fun h b hb heq => h (heq ▸ hb)⟩

end SchemaLoom
