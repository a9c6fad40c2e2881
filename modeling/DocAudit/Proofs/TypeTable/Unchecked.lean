import DocAudit.TypeTable.Hierarchy
import Mathlib.Logic.Function.Iterate
import Mathlib.Logic.Relation
import Mathlib.Tactic.SplitIfs

/-!
The exceptions that need no declaration. They are the descendants of one class, even in a hierarchy
that is cyclic or leads to types that are not known.
-/

set_option autoImplicit false

namespace DocAudit.TypeTable

variable {table : TypeTable} {root : Text} {ty : JavaType}

/-- The type leads to another one by superclasses, in any number of steps. -/
def Descends (table : TypeTable) : JavaType → JavaType → Prop :=
  Relation.ReflTransGen fun a b => table.superclass? a = some b

/-- A type without superclass leads to itself alone. -/
theorem Descends.eq_of_none {super : JavaType} (leads : table.Descends ty super)
    (top : table.superclass? ty = none) : super = ty := by
  rcases leads.cases_head with rfl | ⟨next, edge, -⟩
  · rfl
  · rw [top] at edge
    exact absurd edge (by simp)

theorem superclass?_of_isArray (array : ty.isArray) : table.superclass? ty = none := by
  rw [superclass?, known?, if_pos array, Option.bind_none]

/-- Among types that have their superclasses among them, nothing leads to another type. -/
theorem Descends.mem_of_closed {types : List JavaType} {super : JavaType}
    (closed : ∀ a ∈ types, ∀ b, table.superclass? a = some b → b ∈ types)
    (leads : table.Descends ty super) (member : ty ∈ types) : super ∈ types := by
  induction leads with
  | refl => exact member
  | tail _ edge ih => exact closed _ ih _ edge

private theorem descendsFrom_eq (seen : List JavaType) (ty : JavaType) :
    table.descendsFrom root seen ty =
      if ty.isArray || ty ∈ seen then false
      else if ty.element = root then true
      else (table.superclass? ty).elim false (table.descendsFrom root (ty :: seen)) := by
  rw [descendsFrom]
  split_ifs
  · rfl
  · rfl
  · split
    · next top => rw [top, Option.elim_none]
    · next edge => rw [edge, Option.elim_some]

/-- A climb that met `seen` on its way to a type finds the root exactly if the type descends from
it. What it met is a chain without the root that leads to the type. -/
private theorem descendsFrom_iff (seen : List JavaType) (ty : JavaType)
    (apart : ⟨root, 0⟩ ∉ seen)
    (chain : ∀ a ∈ seen, ∀ b, table.superclass? a = some b → b ∈ seen ∨ b = ty) :
    table.descendsFrom root seen ty ↔ table.Descends ty ⟨root, 0⟩ := by
  induction seen, ty using descendsFrom.induct table root with
  | case1 seen ty stops =>
    rw [descendsFrom_eq, if_pos stops]
    refine iff_of_false Bool.false_ne_true fun leads => ?_
    rcases Bool.or_eq_true_iff.mp stops with array | member
    · obtain rfl := leads.eq_of_none (superclass?_of_isArray array)
      exact absurd array (by simp [JavaType.isArray])
    -- The climb is back at a type that it met, so it can only go round.
    · have member : ty ∈ seen := of_decide_eq_true member
      refine apart (leads.mem_of_closed (fun a met b edge => ?_) member)
      rcases chain a met b edge with met | rfl
      · exact met
      · exact member
  | case2 seen ty goesOn found =>
    rw [descendsFrom_eq, if_neg goesOn, if_pos found]
    have plain : ty = ⟨root, 0⟩ := by
      obtain ⟨element, dimensions⟩ := ty
      obtain rfl : element = root := found
      obtain rfl : dimensions = 0 := by simp_all [JavaType.isArray]
      rfl
    rw [plain]
    exact iff_of_true rfl Relation.ReflTransGen.refl
  | case3 seen ty goesOn other top =>
    rw [descendsFrom_eq, if_neg goesOn, if_neg other, top, Option.elim_none]
    refine iff_of_false Bool.false_ne_true fun leads => other ?_
    rw [← leads.eq_of_none top]
  | case4 seen ty goesOn other super edge ih =>
    rw [descendsFrom_eq, if_neg goesOn, if_neg other, edge, Option.elim_some]
    have apart' : ⟨root, 0⟩ ∉ ty :: seen := by
      rw [List.mem_cons, not_or]
      exact ⟨fun same => other (congrArg JavaType.element same).symm, apart⟩
    have chain' : ∀ a ∈ ty :: seen, ∀ b, table.superclass? a = some b →
        b ∈ ty :: seen ∨ b = super := by
      intro a met b next
      rcases List.mem_cons.mp met with rfl | met
      · exact Or.inr (Option.some.inj (next.symm.trans edge))
      · exact Or.inl (List.mem_cons.mpr (chain a met b next).symm)
    rw [ih apart' chain']
    constructor
    · exact Relation.ReflTransGen.head edge
    · intro leads
      rcases leads.cases_head with same | ⟨next, first, rest⟩
      · exact absurd (congrArg JavaType.element same) other
      · rwa [Option.some.inj (edge.symm.trans first)]

/-- A climb along superclasses: at a type, after it met types of these names, or at its end. -/
inductive Climb where
  | climbing (met : List Text) (ty : JavaType)
  | ended (found : Bool)

/-- One turn of a climb. It ends at an array, at a name that it met before, at the root and at a
type without superclass; else it goes on to the superclass. -/
def Climb.turn (table : TypeTable) (root : Text) : Climb → Climb
  | climbing met ty =>
    if ty.isArray || met.contains ty.element then ended false
    else if ty.element = root then ended true
    else
      match table.superclass? ty with
      | none => ended false
      | some super => climbing (ty.element :: met) super
  | ended found => ended found

private theorem mem_map_iff (met : List Text) (noArray : ¬ ty.isArray) :
    ty ∈ met.map (⟨·, 0⟩) ↔ ty.element ∈ met := by
  obtain ⟨element, dimensions⟩ := ty
  obtain rfl : dimensions = 0 := by simpa [JavaType.isArray] using noArray
  simp

/-- A climb meets a known type at every turn but the last, so it ends, and with the answer of the
search. The names that it met tell as much as the types, for none of these is an array. -/
private theorem turns_of_unseen_lt (met : List Text) (ty : JavaType) (n : Nat)
    (enough : table.unseen (met.map (⟨·, 0⟩)) < n) :
    (Climb.turn table root)^[n] (.climbing met ty) =
      .ended (table.descendsFrom root (met.map (⟨·, 0⟩)) ty) := by
  induction n generalizing met ty with
  | zero => omega
  | succ n ih =>
    have stays : ∀ found, (Climb.turn table root)^[n] (.ended found) = .ended found :=
      fun found => Function.iterate_fixed rfl n
    rw [Function.iterate_succ_apply, Climb.turn, descendsFrom_eq]
    by_cases array : ty.isArray
    · rw [if_pos (by simp [array]), if_pos (by simp [array]), stays]
    · have same := mem_map_iff met array
      by_cases again : ty.element ∈ met
      · rw [if_pos (by simp [again]), if_pos (by simp [same, again]), stays]
      · have goesOn : ¬ (ty.isArray || met.contains ty.element) := by simp [array, again]
        have goesOn' : ¬ (ty.isArray || decide (ty ∈ met.map (⟨·, 0⟩))) := by
          simp [array, same, again]
        rw [if_neg goesOn, if_neg goesOn']
        by_cases found : ty.element = root
        · rw [if_pos found, if_pos found, stays]
        · rw [if_neg found, if_neg found]
          cases edge : table.superclass? ty with
          | none => exact stays false
          | some super =>
            have leads : table.supertypes ty ≠ [] := by simp [supertypes, edge]
            obtain ⟨plain, isKnown⟩ := known?_eq_some_of_supertypes_ne_nil leads
            have isNew : ⟨ty.element, 0⟩ ∉ met.map (⟨·, 0⟩ : Text → JavaType) := by
              rw [← plain, same]
              exact again
            have less : table.unseen ((ty.element :: met).map (⟨·, 0⟩)) < n :=
              Nat.lt_of_lt_of_le (unseen_cons_lt isKnown isNew) (Nat.le_of_lt_succ enough)
            rw [Option.elim_some, plain]
            exact ih (ty.element :: met) super less

/-- In any hierarchy the climb from a type ends, at the latest one turn after it met every known
type. An exception is unchecked exactly if superclasses lead from it, in any number of steps, to the
root of these. -/
theorem isUnchecked_iff_descends (table : TypeTable) (ty : JavaType) :
    (Climb.turn table uncheckedRoot)^[table.size + 1] (.climbing [] ty) =
      .ended (table.isUnchecked ty) ∧
    (table.isUnchecked ty ↔ table.Descends ty ⟨uncheckedRoot, 0⟩) := by
  have fewer : table.unseen [] < table.size + 1 := by
    have all := List.length_filter_le (fun name => decide (⟨name, 0⟩ ∉ ([] : List JavaType)))
      table.names
    rw [names, List.length_map] at all
    exact Nat.lt_succ_of_le all
  exact ⟨turns_of_unseen_lt [] ty _ fewer,
    descendsFrom_iff [] ty List.not_mem_nil fun a met => absurd met List.not_mem_nil⟩

end DocAudit.TypeTable
