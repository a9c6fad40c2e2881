import DocAudit.Proofs.TypeTable.Signatures
import DocAudit.Reference

/-!
Nothing that reads a table sees the order of its types: two tables that hold the same for every name
are interchangeable in every search and in every resolution.
-/

set_option autoImplicit false

namespace DocAudit

variable {table table' : TypeTable}

namespace TypeTable

/-- Two tables hold the same for every name. -/
def SameEntries (table table' : TypeTable) : Prop :=
  ∀ name, table.find? name = table'.find? name

theorem SameEntries.sameNames (same : table.SameEntries table') : table.SameNames table' := by
  intro name
  rw [contains, contains, same name]

section Members

variable {ty : JavaType}

private theorem known?_congr (same : table.SameEntries table') :
    table.known? ty = table'.known? ty := by
  rw [known?, known?, same ty.element]

private theorem superclass?_congr (same : table.SameEntries table') :
    table.superclass? ty = table'.superclass? ty := by
  rw [superclass?, superclass?, known?_congr same]

private theorem fields_congr (same : table.SameEntries table') :
    table.fields ty = table'.fields ty := by
  rw [fields, fields, known?_congr same]

private theorem methods_congr (same : table.SameEntries table') :
    table.methods ty = table'.methods ty := by
  rw [methods, methods, known?_congr same]

private theorem constructors_congr (same : table.SameEntries table') :
    table.constructors ty = table'.constructors ty := by
  rw [constructors, constructors, known?_congr same]

private theorem supertypes_congr (same : table.SameEntries table') :
    table.supertypes ty = table'.supertypes ty := by
  rw [supertypes, supertypes, superclass?_congr same, interfaces, interfaces, known?_congr same]

end Members

section Search

private theorem reach_congr (same : table.SameEntries table') (seen waiting : List JavaType) :
    table.reach seen waiting = table'.reach seen waiting := by
  induction seen, waiting using reach.induct table with
  | case1 seen => rw [reach, reach]
  | case2 seen next waiting isSeen ih => rw [reach, reach, if_pos isSeen, if_pos isSeen, ih]
  | case3 seen next waiting isNew ih =>
    rw [reach, reach, if_neg isNew, if_neg isNew, ih, supertypes_congr same]

private theorem lineage_congr (same : table.SameEntries table') :
    table.lineage = table'.lineage :=
  funext fun ty => reach_congr same [] [ty]

theorem hasFieldOrMethod_congr (same : table.SameEntries table') (ty : JavaType) (name : Text) :
    table.hasFieldOrMethod ty name = table'.hasFieldOrMethod ty name := by
  simp only [hasFieldOrMethod, lineage_congr same, fields_congr same, methods_congr same]

theorem hasOverload_congr (same : table.SameEntries table') (ty : JavaType) (name : Text)
    (parameters : List JavaType) :
    table.hasOverload ty name parameters = table'.hasOverload ty name parameters := by
  simp only [hasOverload, lineage_congr same, methods_congr same]

theorem hasConstructor_congr (same : table.SameEntries table') (ty : JavaType)
    (parameters : List JavaType) :
    table.hasConstructor ty parameters = table'.hasConstructor ty parameters := by
  rw [hasConstructor, hasConstructor, constructors_congr same]

private theorem descendsFrom_congr (same : table.SameEntries table') (root : Text)
    (seen : List JavaType) (ty : JavaType) :
    table.descendsFrom root seen ty = table'.descendsFrom root seen ty := by
  induction seen, ty using descendsFrom.induct table root with
  | case1 seen ty ends => rw [descendsFrom, descendsFrom, if_pos ends, if_pos ends]
  | case2 seen ty goesOn isRoot =>
    rw [descendsFrom, descendsFrom, if_neg goesOn, if_neg goesOn, if_pos isRoot, if_pos isRoot]
  | case3 seen ty goesOn other top =>
    have top' : table'.superclass? ty = none := (superclass?_congr same).symm.trans top
    rw [descendsFrom, descendsFrom, if_neg goesOn, if_neg goesOn, if_neg other, if_neg other]
    split
    · split
      · rfl
      · next above' => simp [top'] at above'
    · next above => simp [top] at above
  | case4 seen ty goesOn other superclass above ih =>
    have above' : table'.superclass? ty = some superclass :=
      (superclass?_congr same).symm.trans above
    rw [descendsFrom, descendsFrom, if_neg goesOn, if_neg goesOn, if_neg other, if_neg other]
    split
    · next top => simp [above] at top
    · next first =>
      obtain rfl := Option.some.inj (above.symm.trans first)
      split
      · next top' => simp [above'] at top'
      · next first' =>
        obtain rfl := Option.some.inj (above'.symm.trans first')
        exact ih

theorem isUnchecked_congr (same : table.SameEntries table') (ty : JavaType) :
    table.isUnchecked ty = table'.isUnchecked ty :=
  descendsFrom_congr same uncheckedRoot [] ty

end Search

end TypeTable

/-- The types of a parameter list depend on nothing but the known names. -/
theorem Signature.resolve_congr (same : table.SameNames table') (scope : Scope) (list : Text) :
    resolve scope table list = resolve scope table' list := by
  simp only [resolve, Scope.resolve?_congr same]

namespace Reference

open TypeTable

private theorem checkOverload_congr (same : table.SameEntries table') (scope : Scope)
    (tag : Text) (ty : JavaType) (member name list : Text) :
    checkOverload scope table tag ty member name list =
      checkOverload scope table' tag ty member name list := by
  simp only [checkOverload, Signature.resolve_congr same.sameNames, hasConstructor_congr same,
    hasOverload_congr same]

/-- Whether a reference is right does not depend on the order of the types. -/
theorem check_congr (same : table.SameEntries table') (scope : Scope) (own tag argument : Text) :
    check scope table own tag argument = check scope table' own tag argument := by
  simp only [check, Scope.resolve?_congr same.sameNames, hasFieldOrMethod_congr same,
    checkOverload_congr same]

end Reference

end DocAudit
