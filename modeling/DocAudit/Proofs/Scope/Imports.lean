import DocAudit.Scope
import Mathlib.Data.List.Basic
import Mathlib.Data.List.Nodup

/-!
The imports in the scope of a unit. Of the names that imports give, empty ones and repetitions are
left out there, and no name is resolved differently for it.
-/

set_option autoImplicit false

namespace DocAudit

section FirstOccurrences

variable {α β : Type} [BEq α]

private theorem eraseDups_filter_cons (keep : α → Bool) (a : α) (l : List α) :
    ((a :: l).filter keep).eraseDups =
      if keep a then a :: (l.filter fun b => !b == a && keep b).eraseDups
      else (l.filter keep).eraseDups := by
  rw [List.filter_cons]
  split_ifs
  · rw [List.eraseDups_cons, List.filter_filter]
  · rfl

variable [LawfulBEq α]

/-- What is kept of a list without repetitions stands in the order of first occurrences there. -/
private theorem pairwise_idxOf_eraseDups (l : List α) (keep : α → Bool) :
    (l.filter keep).eraseDups.Pairwise fun a b => l.idxOf a < l.idxOf b := by
  induction l generalizing keep with
  | nil => simp
  | cons a l ih =>
    have later : ∀ keep : α → Bool, keep a = false →
        (l.filter keep).eraseDups.Pairwise fun b c => (a :: l).idxOf b < (a :: l).idxOf c := by
      intro keep dropped
      have other : ∀ b ∈ (l.filter keep).eraseDups, a ≠ b := by
        rintro b member rfl
        have kept := (List.mem_filter.mp (List.mem_eraseDups.mp member)).2
        simp [dropped] at kept
      refine (ih keep).imp_of_mem fun first second less => ?_
      rw [List.idxOf_cons_ne l (other _ first), List.idxOf_cons_ne l (other _ second)]
      exact Nat.succ_lt_succ less
    rw [eraseDups_filter_cons]
    split_ifs with kept
    · refine List.pairwise_cons.mpr ⟨fun b member => ?_, later _ (by simp)⟩
      have other : a ≠ b := by
        rintro rfl
        simpa using (List.mem_filter.mp (List.mem_eraseDups.mp member)).2
      rw [List.idxOf_cons_self, List.idxOf_cons_ne l other]
      exact Nat.succ_pos _
    · exact later keep (by simpa using kept)

/-- A search that finds nothing in what is left out finds the same in what is kept, and repetitions
do not matter to it. -/
private theorem findSome?_eraseDups (l : List α) (keep : α → Bool) (f : α → Option β)
    (nothing : ∀ a, keep a = false → f a = none) :
    (l.filter keep).eraseDups.findSome? f = l.findSome? f := by
  induction l generalizing keep with
  | nil => rfl
  | cons a l ih =>
    rw [eraseDups_filter_cons, List.findSome?_cons]
    split_ifs with kept
    · rw [List.findSome?_cons]
      cases found : f a with
      | some b => rfl
      | none =>
        refine ih _ fun b left => ?_
        by_cases same : b = a
        · rwa [same]
        · exact nothing b (by simpa [same] using left)
    · rw [nothing a (by simpa using kept)]
      exact ih keep nothing

end FirstOccurrences

/-- The names that the imports of a unit give, in source order: for each import its own name, then
the name of what holds it. Names may be empty and may repeat. -/
def CompilationUnit.importedNames (unit : CompilationUnit) : List Text :=
  unit.imports.flatMap fun i => [i.name, i.container]

namespace Scope

/-- The scope with other imports. -/
def withImports (scope : Scope) (imports : List Text) : Scope :=
  { scope with imports }

variable {unit : CompilationUnit} {outermost name : Text} {dimensions : Nat}

private theorem imports_ofUnit :
    (ofUnit unit outermost).imports = (unit.importedNames.filter (!·.isEmpty)).eraseDups := rfl

theorem mem_imports_ofUnit_iff :
    name ∈ (ofUnit unit outermost).imports ↔ name ≠ [] ∧ name ∈ unit.importedNames := by
  rw [imports_ofUnit, List.mem_eraseDups, List.mem_filter, and_comm]
  simp

theorem find?_qualified_ofUnit (p : Text → Bool) :
    ((ofUnit unit outermost).qualified name).find? p =
      (((ofUnit unit outermost).withImports unit.importedNames).qualified name).find? p := by
  have imported : ((ofUnit unit outermost).imports.filter (·.endsWith ('.' :: name))).find? p =
      (unit.importedNames.filter (·.endsWith ('.' :: name))).find? p := by
    rw [List.find?_filter, List.find?_filter, List.find?_eq_findSome?_guard,
      List.find?_eq_findSome?_guard, imports_ofUnit]
    refine findSome?_eraseDups _ _ _ fun holder empty => ?_
    obtain rfl : holder = [] := by simpa using empty
    simp [Text.endsWith]
  have inImported : ((ofUnit unit outermost).imports.flatMap (within · name)).find? p =
      (unit.importedNames.flatMap (within · name)).find? p := by
    rw [List.find?_flatMap, List.find?_flatMap, imports_ofUnit]
    refine findSome?_eraseDups _ _ _ fun holder empty => ?_
    obtain rfl : holder = [] := by simpa using empty
    rfl
  simp only [qualified, withImports, List.find?_append, imported, inImported]

theorem element?_ofUnit (table : TypeTable) :
    (ofUnit unit outermost).element? table name dimensions =
      ((ofUnit unit outermost).withImports unit.importedNames).element? table name
        dimensions := by
  rw [element?, element?, find?_qualified_ofUnit]

/-- The scope of a unit has every name that an import gives exactly once, in the order in which they
first occur, but for the empty name. Every name stands for what it would stand for if the scope had
them all. -/
theorem resolve?_ofUnit (unit : CompilationUnit) (outermost : Text) :
    let scope := ofUnit unit outermost
    let whole := scope.withImports unit.importedNames
    [] ∉ scope.imports ∧ scope.imports.Nodup ∧
      (∀ name, scope.imports.count name =
        if name ≠ [] ∧ name ∈ unit.importedNames then 1 else 0) ∧
      (scope.imports.Pairwise fun name next =>
        unit.importedNames.idxOf name < unit.importedNames.idxOf next) ∧
      ∀ table query, scope.resolve? table query = whole.resolve? table query := by
  intro scope whole
  have order : scope.imports.Pairwise fun name next =>
      unit.importedNames.idxOf name < unit.importedNames.idxOf next :=
    pairwise_idxOf_eraseDups unit.importedNames _
  have nodup : scope.imports.Nodup :=
    order.imp fun less same => absurd (same ▸ less) (Nat.lt_irrefl _)
  refine ⟨fun member => ?_, nodup, fun name => ?_, order, fun table query => ?_⟩
  · exact (mem_imports_ofUnit_iff.mp member).1 rfl
  · split_ifs with given
    · exact List.count_eq_one_of_mem nodup (mem_imports_ofUnit_iff.mpr given)
    · exact List.count_eq_zero.mpr (mt mem_imports_ofUnit_iff.mp given)
  · exact congrArg (Option.map _) (element?_ofUnit table)

example :
    (ofUnit ⟨some "shop", [⟨"java.util.List", false, false⟩, ⟨"java.util", true, false⟩], [], []⟩
      "shop.Cart").imports = ["java.util.List", "java.util"] := by
  decide +kernel

end Scope

end DocAudit
