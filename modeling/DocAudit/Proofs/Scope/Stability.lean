import DocAudit.Proofs.Scope.CanonicalName
import DocAudit.Report

/-!
What a look-up shows is a name like any other. Looked up in its turn, in whatever scope, it stands for
the type that was found.
-/

set_option autoImplicit false

namespace DocAudit.Scope

variable {scope : Scope} {table : TypeTable} {name query element candidate : Text}
  {dimensions : Nat} {ty : JavaType}

private theorem ne_nil_of_mem_qualified (member : candidate ∈ scope.qualified name) :
    candidate ≠ [] := by
  rintro rfl
  have nested := mem_nestedInLast_of_length_le member (Nat.zero_le name.length)
  obtain ⟨outer, inner, -, -, split⟩ := exists_of_mem_nestedInLast nested
  exact absurd split.symm (by simp)

private theorem ne_nil_of_element? (found : scope.element? table name dimensions = some element) :
    element ≠ [] := by
  rw [element?] at found
  split_ifs at found with nothing direct
  · obtain rfl := Option.some.inj found
    simpa using nothing
  · exact ne_nil_of_mem_qualified (List.mem_of_find?_eq_some found)

/-- What a name stands for is found under its own name, whatever the scope. -/
theorem element?_of_element? (found : scope.element? table name dimensions = some element)
    (other : Scope) : other.element? table element dimensions = some element := by
  have ne_nil := ne_nil_of_element? found
  have stands := contains_or_isPrimitive_of_element? found
  rw [element?, if_neg (by simpa using ne_nil), if_pos (by simpa using stands)]

private theorem isElementName_of_element?
    (plain : ∀ name ∈ table.names, JavaType.IsElementName name)
    (found : scope.element? table name dimensions = some element) :
    JavaType.IsElementName element := by
  rcases contains_or_isPrimitive_of_element? found with known | primitive
  · exact plain element (TypeTable.contains_iff_mem_names.mp known)
  · have primitives : ∀ name ∈ JavaType.primitives, JavaType.IsElementName name := by
      decide +kernel
    have member := List.contains_iff_mem.mp (Bool.and_eq_true_iff.mp primitive).1
    exact primitives element member

/-- What a look-up shows of a type stands for that type in every scope and is read as that type. -/
theorem resolve?_shown (plain : ∀ name ∈ table.names, JavaType.IsElementName name)
    (found : scope.resolve? table query = some ty) :
    let shown := Lookup.render ⟨query, scope.resolve? table query⟩ .text
    (∀ other : Scope, other.resolve? table shown = some ty) ∧ JavaType.ofBinaryName shown = ty := by
  intro shown
  have same : shown = ty.binaryName := by
    simp only [shown, found, Lookup.render]
  obtain ⟨stands, dimensions⟩ := resolve?_eq_some_iff.mp found
  rw [← dimensions] at stands
  have isElement := isElementName_of_element? plain stands
  have ne_nil := ne_nil_of_element? stands
  have parts : JavaType.splitSuffix ty.binaryName.trim = (ty.element, ty.dimensions) :=
    isElement.splitSuffix_trim ne_nil ty.dimensions
  rw [same]
  refine ⟨fun other => ?_, isElement.ofBinaryName_binaryName ne_nil⟩
  rw [resolve?_eq_some_iff, parts]
  exact ⟨element?_of_element? stands other, rfl⟩

/-- Arrays of the settings are found by their short name, and then everywhere by what is shown. -/
theorem resolve?_shown_settings :
    let shown := Lookup.render ⟨"Settings[]...", inApp.resolve? settings "Settings[]..."⟩ .text
    (∀ name ∈ settings.names, JavaType.IsElementName name) ∧
      inApp.resolve? settings "Settings[]..." = some ⟨"com.example.App$Settings", 2⟩ ∧
      shown = "com.example.App$Settings[][]" ∧
      (∀ other : Scope, other.resolve? settings shown = some ⟨"com.example.App$Settings", 2⟩) ∧
      JavaType.ofBinaryName shown = ⟨"com.example.App$Settings", 2⟩ := by
  intro shown
  have plain : ∀ name ∈ settings.names, JavaType.IsElementName name := by decide +kernel
  have found : inApp.resolve? settings "Settings[]..." = some ⟨"com.example.App$Settings", 2⟩ := by
    decide +kernel
  have binaryName : shown = "com.example.App$Settings[][]" := by decide +kernel
  exact ⟨plain, found, binaryName, resolve?_shown plain found⟩

end DocAudit.Scope
