import DocAudit.Proofs.TypeTable.Order
import Mathlib.Data.List.TakeWhile

/-!
What becomes of a name when more types are known. It goes to a new type that is tried before all
known ones, if there is such a type, and else it stands for what it stood for before.
-/

set_option autoImplicit false

namespace DocAudit.Scope

variable {scope : Scope} {table table' : TypeTable} {name query : Text} {dimensions : Nat}

/-- The names that are tried for a name without array suffix, in order. For a primitive type no other
name is tried. -/
def tried (scope : Scope) (name : Text) (dimensions : Nat) : List Text :=
  if name.isEmpty then []
  else if isPrimitive name dimensions then [name]
  else name :: scope.qualified name

/-- The names that are tried in vain, up to the first that is known. -/
def missed (scope : Scope) (table : TypeTable) (query : Text) : List Text :=
  let parts := JavaType.splitSuffix query.trim
  (scope.tried parts.1 parts.2).takeWhile (!table.contains ·)

/-- Where more is found, the first finding lies among what was passed over before, or it is the one
from before. -/
private theorem find?_of_imp {α : Type} {p p' : α → Bool} (more : ∀ a, p a → p' a) (l : List α) :
    l.find? p' = ((l.takeWhile (!p ·)).find? p').or (l.find? p) := by
  induction l with
  | nil => rfl
  | cons a l ih =>
    by_cases hit : p a
    · simp [hit, more a hit]
    · by_cases hit' : p' a
      · simp [hit, hit']
      · simp [hit, hit', ih]

theorem contains_eq_false_of_mem_missed (member : name ∈ scope.missed table query) :
    table.contains name = false := by
  have unknown := List.mem_takeWhile_imp member
  simpa using unknown

/-- The element type that a name stands for when more types are known. -/
private theorem element?_of_imp (more : ∀ other, table.contains other → table'.contains other) :
    scope.element? table' name dimensions =
      (((scope.tried name dimensions).takeWhile (!table.contains ·)).find? table'.contains).or
        (scope.element? table name dimensions) := by
  rw [tried, element?, element?]
  by_cases nothing : name.isEmpty
  · simp [nothing]
  · by_cases primitive : isPrimitive name dimensions
    -- A primitive type is what it was, even if a type of its name is declared.
    · by_cases known : table.contains name
      · simp [nothing, primitive, known]
      · by_cases known' : table'.contains name <;> simp [nothing, primitive, known, known']
    · have found := find?_of_imp more (name :: scope.qualified name)
      by_cases known : table.contains name
      · simp [nothing, primitive, known, more name known]
      · by_cases known' : table'.contains name
        · simp [nothing, primitive, known, known']
        · simpa [nothing, primitive, known, known'] using found

/-- A name goes to the first new type among those that it missed before. -/
theorem resolve?_of_imp (more : ∀ other, table.contains other → table'.contains other)
    (scope : Scope) (query : Text) :
    scope.resolve? table' query =
      (((scope.missed table query).find? table'.contains).map
        (⟨·, (JavaType.splitSuffix query.trim).2⟩)).or (scope.resolve? table query) := by
  simp only [resolve?, missed, element?_of_imp more, Option.map_or]

/-- Declaring a type leaves a name where it was or takes it to the declared type, and does the latter
exactly if the name of that type was tried in vain. -/
theorem resolve?_declare (table : TypeTable) (name : Text) (kind : DeclarationKind) (scope : Scope)
    (query : Text) :
    let before := scope.resolve? table query
    let after := scope.resolve? (table.declare name kind) query
    let captured : JavaType := ⟨name, (JavaType.splitSuffix query.trim).2⟩
    (after = before ∨ after = some captured) ∧
      (before.isSome → after.isSome) ∧
      (name ∈ scope.missed table query → after = some captured) ∧
      (name ∉ scope.missed table query → after = before) := by
  intro before after captured
  have more : ∀ other, table.contains other → (table.declare name kind).contains other :=
    fun other known => TypeTable.contains_declare.mpr (Or.inl known)
  have step : after = (((scope.missed table query).find? (table.declare name kind).contains).map
      (⟨·, (JavaType.splitSuffix query.trim).2⟩)).or before := resolve?_of_imp more scope query
  cases found : (scope.missed table query).find? (table.declare name kind).contains with
  | none =>
    have same : after = before := by rw [step, found, Option.map_none, Option.none_or]
    have absent : name ∉ scope.missed table query := by
      intro member
      have unknown := List.find?_eq_none.mp found name member
      exact unknown (TypeTable.contains_declare.mpr (Or.inr rfl))
    exact ⟨Or.inl same, fun resolved => same ▸ resolved, fun member => absurd member absent,
      fun _ => same⟩
  | some other =>
    have member := List.mem_of_find?_eq_some found
    have unknown : ¬ table.contains other := by simp [contains_eq_false_of_mem_missed member]
    obtain rfl : other = name :=
      (TypeTable.contains_declare.mp (List.find?_some found)).resolve_left unknown
    have taken : after = some captured := by
      rw [step, found, Option.map_some, Option.some_or]
    exact ⟨Or.inr taken, fun _ => taken ▸ rfl, fun _ => taken, fun absent => absurd member absent⟩

/-- More units in a project take a name to nothing but a type that these declare and that the project
did not know. -/
theorem resolve?_ofUnits_append (units added : List CompilationUnit) (scope : Scope)
    (query : Text) :
    let before := scope.resolve? (TypeTable.ofUnits units) query
    let after := scope.resolve? (TypeTable.ofUnits (units ++ added)) query
    after = before ∨ ∃ name, TypeTable.Declares added name ∧
      (TypeTable.ofUnits units).contains name = false ∧
      after = some ⟨name, (JavaType.splitSuffix query.trim).2⟩ := by
  intro before after
  have append {other : Text} : TypeTable.Declares (units ++ added) other ↔
      TypeTable.Declares units other ∨ TypeTable.Declares added other := by
    simp only [TypeTable.Declares, List.mem_append, or_and_right, exists_or]
  have more : ∀ other, (TypeTable.ofUnits units).contains other →
      (TypeTable.ofUnits (units ++ added)).contains other := by
    intro other known
    rw [TypeTable.contains_ofUnits_iff] at known ⊢
    exact known.imp_right fun declares => append.mpr (Or.inl declares)
  have step := resolve?_of_imp more scope query
  cases found : (scope.missed (TypeTable.ofUnits units) query).find?
      (TypeTable.ofUnits (units ++ added)).contains with
  | none =>
    rw [found, Option.map_none, Option.none_or] at step
    exact Or.inl step
  | some name =>
    have unknown := contains_eq_false_of_mem_missed (List.mem_of_find?_eq_some found)
    have known := TypeTable.contains_ofUnits_iff.mp (List.find?_some found)
    rw [found, Option.map_some, Option.some_or] at step
    refine Or.inr ⟨name, ?_, unknown, step⟩
    by_contra elsewhere
    have known' : (TypeTable.ofUnits units).contains name := by
      rw [TypeTable.contains_ofUnits_iff]
      exact known.imp_right fun declares => (append.mp declares).resolve_right elsewhere
    simp [unknown] at known'

end DocAudit.Scope
