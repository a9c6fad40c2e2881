import DocAudit.Proofs.TypeTable.Agreement

/-!
The order of the units leaves no trace in a project's table. Every declared type is completed from
its own declaration and the set of declared names, and every other type stays as the platform has
it.
-/

set_option autoImplicit false

namespace DocAudit

open TypeTable

/-- What a declaration says of its type depends on nothing but the known names. -/
theorem TypeDeclaration.erased_congr {table table' : TypeTable} (same : table.SameNames table')
    (scope : Scope) (t : TypeDeclaration) : t.erased scope table = t.erased scope table' := by
  have erase : Erasure.erase scope table = Erasure.erase scope table' :=
    funext₂ (Erasure.erase_congr same)
  have methods : t.methodSignatures scope table = t.methodSignatures scope table' := by
    rw [methodSignatures, methodSignatures, erase]
  have declared : t.declaredConstructors scope table = t.declaredConstructors scope table' := by
    rw [declaredConstructors, declaredConstructors, erase]
  have constructors : t.constructorSignatures scope table =
      t.constructorSignatures scope table' := by
    rw [constructorSignatures, constructorSignatures, declared, erase]
  rw [erased, erased, erase, methods, constructors]

namespace TypeTable

section Declare

variable {table : TypeTable} {name : Text}

end Declare

section Units

variable {units units' : List CompilationUnit} {unit : CompilationUnit} {t : TypeDeclaration}
  {name : Text}

/-- One of the units declares a type with this name. -/
def Declares (units : List CompilationUnit) (name : Text) : Prop :=
  ∃ unit ∈ units, ∃ t ∈ unit.types, t.binaryName = name

private theorem mem_binaryNames_iff :
    name ∈ (units.flatMap (·.types)).map (·.binaryName) ↔ Declares units name := by
  simp only [Declares, List.mem_map, List.mem_flatMap]
  constructor
  · rintro ⟨t, ⟨unit, member, ofUnit⟩, rfl⟩
    exact ⟨unit, member, t, ofUnit, rfl⟩
  · rintro ⟨unit, member, t, ofUnit, rfl⟩
    exact ⟨t, ⟨unit, member, ofUnit⟩, rfl⟩

private theorem mem_names_insertAll {types : List Platform.PlatformType} {table : TypeTable}
    (member : name ∈ (types.foldl (fun table t => table.insert t.name t.known) table).names) :
    name ∈ table.names ∨ ∃ t ∈ types, t.name.toList = name := by
  induction types generalizing table with
  | nil => exact Or.inl member
  | cons t types ih =>
    rcases ih member with earlier | ⟨u, among, same⟩
    · rcases mem_names_insert.mp earlier with known | rfl
      · exact Or.inl known
      · exact Or.inr ⟨t, List.mem_cons_self, rfl⟩
    · exact Or.inr ⟨u, List.mem_cons_of_mem t among, same⟩

theorem mem_types_of_platform_contains (known : platform.contains name) :
    ∃ t ∈ Platform.types, t.name.toList = name :=
  (mem_names_insertAll (contains_iff_mem_names.mp known)).resolve_left List.not_mem_nil

/-- A project knows the types of the platform and those that it declares. -/
theorem contains_ofUnits_iff :
    (ofUnits units).contains name ↔ platform.contains name ∨ Declares units name := by
  rw [sameNames_declared, contains_iff_mem_names, contains_iff_mem_names, declared,
    mem_names_declareAll, ← mem_binaryNames_iff, List.mem_map]

end Units

end TypeTable

end DocAudit
