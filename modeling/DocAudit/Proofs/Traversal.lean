import Mathlib.Data.List.Forall2

/-!
A list that is read element by element, up to the first that cannot be read.
-/

set_option autoImplicit false

namespace DocAudit.Traversal

variable {α β ε : Type} {f : α → Except ε β} {l : List α} {e : ε}

private theorem mapM_cons_eq_ok_iff {a : α} {r : List β} :
    (a :: l).mapM f = .ok r ↔ ∃ b rest, f a = .ok b ∧ l.mapM f = .ok rest ∧ r = b :: rest := by
  rw [List.mapM_cons]
  cases f a with
  | error e => simp [bind, Except.bind]
  | ok b => cases l.mapM f <;> simp [bind, Except.bind, pure, Except.pure, eq_comm]

/-- A list is read exactly when each of its elements is. -/
theorem mapM_eq_ok_iff {r : List β} :
    l.mapM f = .ok r ↔ List.Forall₂ (fun a b => f a = .ok b) l r := by
  induction l generalizing r with
  | nil => simp [pure, Except.pure, eq_comm]
  | cons a l ih =>
    rw [mapM_cons_eq_ok_iff, List.forall₂_cons_left_iff]
    simp only [ih]

private theorem mapM_cons_eq_error_iff {a : α} :
    (a :: l).mapM f = .error e ↔ f a = .error e ∨ (∃ b, f a = .ok b) ∧ l.mapM f = .error e := by
  rw [List.mapM_cons]
  cases f a with
  | error e' => simp [bind, Except.bind]
  | ok b => cases l.mapM f <;> simp [bind, Except.bind, pure, Except.pure]

/-- The error is that of the first element that cannot be read. -/
theorem mapM_eq_error_iff :
    l.mapM f = .error e ↔
      ∃ before a after, l = before ++ a :: after ∧ (∀ b ∈ before, ∃ r, f b = .ok r) ∧
        f a = .error e := by
  induction l with
  | nil => simp [pure, Except.pure]
  | cons a l ih =>
    rw [mapM_cons_eq_error_iff, ih]
    constructor
    · rintro (failed | ⟨isRead, before, b, after, rfl, earlier, failed⟩)
      · exact ⟨[], a, l, rfl, List.forall_mem_nil _, failed⟩
      · exact ⟨a :: before, b, after, rfl, List.forall_mem_cons.mpr ⟨isRead, earlier⟩, failed⟩
    · rintro ⟨before, b, after, split, earlier, failed⟩
      rcases List.cons_eq_append_iff.mp split with ⟨rfl, same⟩ | ⟨before, rfl, rfl⟩
      · obtain ⟨rfl, -⟩ := List.cons.inj same
        exact Or.inl failed
      · obtain ⟨isRead, earlier⟩ := List.forall_mem_cons.mp earlier
        exact Or.inr ⟨isRead, before, b, after, rfl, earlier, failed⟩

end DocAudit.Traversal
