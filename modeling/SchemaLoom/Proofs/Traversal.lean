import Mathlib.Data.List.Forall2

/-! Traversals that may fail: they succeed where every round does, and fail as one of them does. So
they fail alike where their rounds do. -/
namespace SchemaLoom

section
variable {α β ε : Type}

theorem bind_eq_ok {m : Except ε α} {f : α → Except ε β} {b : β} (h : m >>= f = .ok b) :
    ∃ a, m = .ok a ∧ f a = .ok b := by
  cases m with
  | error e => cases h
  | ok a => exact ⟨a, rfl, h⟩

theorem eq_ok_of_toOption {m : Except ε α} {a : α} (h : m.toOption = some a) : m = .ok a := by
  cases m with
  | error e => cases h
  | ok b => exact congrArg Except.ok (Option.some.inj h)

theorem forM_eq_ok {f : α → Except ε Unit} {xs : List α} :
    xs.forM f = .ok () ↔ ∀ x ∈ xs, f x = .ok () := by
  induction xs with
  | nil => simp [pure, Except.pure]
  | cons x xs ih =>
    change (f x >>= fun _ => xs.forM f) = .ok () ↔ _
    rw [List.forall_mem_cons, ← ih]
    cases h : f x <;> simp [bind, Except.bind]

theorem exists_of_forM_eq_error {f : α → Except ε Unit} {xs : List α} {e : ε}
    (h : xs.forM f = .error e) : ∃ x ∈ xs, f x = .error e := by
  induction xs with
  | nil => cases h
  | cons x xs ih =>
    change (f x >>= fun _ => xs.forM f) = .error e at h
    cases hx : f x with
    | error e' =>
      rw [hx] at h
      cases h
      exact ⟨x, by simp, hx⟩
    | ok u =>
      rw [hx] at h
      obtain ⟨y, hy, he⟩ := ih h
      exact ⟨y, by simp [hy], he⟩

theorem mapM_eq_ok {f : α → Except ε β} {xs : List α} {ys : List β} :
    xs.mapM f = .ok ys ↔ List.Forall₂ (fun x y => f x = .ok y) xs ys := by
  induction xs generalizing ys with
  | nil => cases ys <;> simp [pure, Except.pure]
  | cons x xs ih =>
    rw [List.mapM_cons]
    cases hx : f x with
    | error e => cases ys <;> simp [bind, Except.bind, hx]
    | ok y =>
      cases hxs : xs.mapM f with
      | error e => cases ys <;> simp [bind, Except.bind, hx, hxs, ← ih]
      | ok rest => cases ys <;> simp [bind, Except.bind, pure, Except.pure, hx, hxs, ← ih]

theorem exists_of_mapM_eq_error {f : α → Except ε β} {xs : List α} {e : ε}
    (h : xs.mapM f = .error e) : ∃ x ∈ xs, f x = .error e := by
  induction xs with
  | nil => cases h
  | cons x xs ih =>
    rw [List.mapM_cons] at h
    cases hx : f x with
    | error e' =>
      rw [hx] at h
      cases h
      exact ⟨x, by simp, hx⟩
    | ok y =>
      cases hxs : xs.mapM f with
      | error e' =>
        rw [hx, hxs] at h
        cases h
        obtain ⟨z, hz, he⟩ := ih hxs
        exact ⟨z, by simp [hz], he⟩
      | ok ys =>
        rw [hx, hxs] at h
        cases h

/-- A traversal by an operation that always succeeds on the list is a map. -/
theorem mapM_eq_some {f : α → Option β} {g : α → β} {xs : List α} (h : ∀ x ∈ xs, f x = some (g x)) :
    xs.mapM f = some (xs.map g) := by
  induction xs with
  | nil => rfl
  | cons x xs ih =>
    rw [List.mapM_cons, h x (by simp), ih fun y hy => h y (by simp [hy])]
    rfl

theorem mapM_eq_none {f : α → Option β} {xs : List α} {x : α} (hx : x ∈ xs) (h : f x = none) :
    xs.mapM f = none := by
  induction xs with
  | nil => cases hx
  | cons y ys ih =>
    rw [List.mapM_cons]
    obtain rfl | hx := List.mem_cons.mp hx
    · rw [h]
      rfl
    · rw [ih hx]
      cases f y <;> rfl

theorem exists_of_mem_left {R : α → β → Prop} {xs : List α} {ys : List β} (h : List.Forall₂ R xs ys)
    {x : α} (hx : x ∈ xs) : ∃ y ∈ ys, R x y := by
  induction h with
  | nil => simp at hx
  | cons hxy _ ih =>
    obtain rfl | hx := List.mem_cons.mp hx
    · exact ⟨_, by simp, hxy⟩
    · obtain ⟨y, hy, hr⟩ := ih hx
      exact ⟨y, by simp [hy], hr⟩

theorem exists_of_mem_right {R : α → β → Prop} {xs : List α} {ys : List β}
    (h : List.Forall₂ R xs ys) {y : β} (hy : y ∈ ys) : ∃ x ∈ xs, R x y :=
  exists_of_mem_left (R := flip R) h.flip hy

theorem map_eq_map_of_forall₂ {κ : Type} {f : α → κ} {k : β → κ} {xs : List α} {ys : List β}
    (h : List.Forall₂ (fun x y => k y = f x) xs ys) : ys.map k = xs.map f := by
  induction h with
  | nil => rfl
  | cons hxy _ ih => rw [List.map_cons, List.map_cons, hxy, ih]

/-- A relation that depends on a key only holds of lists with the same keys alike. -/
theorem forall₂_of_map_eq {κ : Type} {R : α → β → Prop} {key : α → κ}
    {xs xs' : List α} {ys : List β} (h : List.Forall₂ R xs ys) (hkey : xs.map key = xs'.map key)
    (hR : ∀ x ∈ xs, ∀ x' ∈ xs', ∀ y, key x = key x' → R x y → R x' y) : List.Forall₂ R xs' ys := by
  induction h generalizing xs' with
  | nil =>
    cases xs' with
    | nil => exact .nil
    | cons x' xs' => simp at hkey
  | cons hxy _ ih =>
    cases xs' with
    | nil => simp at hkey
    | cons x' xs' =>
      obtain ⟨hx, hxs⟩ := List.cons.inj hkey
      refine .cons (hR _ (by simp) _ (by simp) _ hx hxy) (ih hxs fun x hx x' hx' => ?_)
      exact hR x (by simp [hx]) x' (by simp [hx'])

/-- Lists of the same keys have the same images, if these depend on keys only. -/
theorem map_eq_map_of_keys {κ : Type} {key : α → κ} {f : α → β} {xs ys : List α}
    (hkeys : xs.map key = ys.map key) (hf : ∀ x ∈ xs, ∀ y ∈ ys, key x = key y → f x = f y) :
    xs.map f = ys.map f := by
  have hsame : List.Forall₂ (fun x y => f x = f y) xs xs := List.forall₂_same.mpr fun _ _ => rfl
  have hrest := forall₂_of_map_eq hsame hkeys fun x hx y hy z hxy hxz =>
    (hf x hx y hy hxy).symm.trans hxz
  exact map_eq_map_of_forall₂ (hrest.imp fun _ _ h => h.symm)

/-- A traversal does the same over lists of the same keys, if its rounds depend on keys only. -/
theorem mapM_congr_of_keys {m : Type → Type} [Monad m] [LawfulMonad m] {κ : Type} {key : α → κ}
    {f : α → m β} {xs ys : List α} (hkeys : xs.map key = ys.map key)
    (hf : ∀ x ∈ xs, ∀ y ∈ ys, key x = key y → f x = f y) : xs.mapM f = ys.mapM f := by
  have hmap (zs : List α) : zs.mapM f = (zs.map f).mapM id := by
    rw [List.mapM_map]
    rfl
  rw [hmap, hmap, map_eq_map_of_keys hkeys hf]

/-- What holds of programs put together from such programs holds of a traversal by them. -/
theorem closed_mapM {m : Type → Type} [Monad m] [LawfulMonad m] {P : ∀ γ : Type, m γ → Prop}
    (hpure : ∀ (γ : Type) (c : γ), P γ (pure c))
    (hbind : ∀ (γ δ : Type) (p : m γ) (k : γ → m δ), P γ p → (∀ c, P δ (k c)) → P δ (p >>= k))
    {xs : List α} {f : α → m β} (h : ∀ x ∈ xs, P β (f x)) : P (List β) (xs.mapM f) := by
  induction xs with
  | nil => exact hpure _ []
  | cons x xs ih =>
    rw [List.mapM_cons]
    refine hbind _ _ _ _ (h x (by simp)) fun b => ?_
    exact hbind _ _ _ _ (ih fun y hy => h y (by simp [hy])) fun bs => hpure _ (b :: bs)

end

/-- Where one of two attempts fails so does the other one, for the same reason. -/
def FailAlike {ε α β : Type} (m : Except ε α) (n : Except ε β) : Prop :=
  ∀ e, m = .error e ↔ n = .error e

namespace FailAlike
variable {ε α β γ δ : Type}

theorem refl (m : Except ε α) : FailAlike m m := fun _ => .rfl

theorem of_ok (a : α) (b : β) : FailAlike (.ok a : Except ε α) (.ok b) := fun _ => by simp

theorem bind {m : Except ε α} {n : Except ε β} {f : α → Except ε γ} {k : β → Except ε δ}
    (h : FailAlike m n) (hk : ∀ a b, m = .ok a → n = .ok b → FailAlike (f a) (k b)) :
    FailAlike (m >>= f) (n >>= k) := by
  cases m with
  | error e =>
    rw [(h e).mp rfl]
    exact fun e' => by simp [Bind.bind, Except.bind]
  | ok a =>
    cases n with
    | error e => cases (h e).mpr rfl
    | ok b => exact hk a b rfl rfl

theorem forM {xs : List α} {f k : α → Except ε Unit} (h : ∀ x ∈ xs, FailAlike (f x) (k x)) :
    FailAlike (xs.forM f) (xs.forM k) := by
  induction xs with
  | nil => exact refl _
  | cons x xs ih => exact bind (h x (by simp)) fun _ _ _ _ => ih fun y hy => h y (by simp [hy])

theorem mapM {xs : List α} {f : α → Except ε γ} {k : α → Except ε δ}
    (h : ∀ x ∈ xs, FailAlike (f x) (k x)) :
    FailAlike (xs.mapM f) (xs.mapM k) := by
  induction xs with
  | nil => exact of_ok _ _
  | cons x xs ih =>
    rw [List.mapM_cons, List.mapM_cons]
    refine bind (h x (by simp)) fun b d _ _ => ?_
    exact bind (ih fun y hy => h y (by simp [hy])) fun bs ds _ _ => of_ok _ _

end FailAlike

end SchemaLoom
