import DocAudit.Proofs.Scope.CanonicalName

/-!
Array types in source. Whatever suffix follows a name, the name stands for the same element type,
and the suffix gives nothing but the dimensions.
-/

set_option autoImplicit false

namespace DocAudit

namespace JavaType

/-- An array suffix as it is written: pairs of brackets, and three dots behind them for a variable
number of arguments. -/
def writtenSuffix (brackets : Nat) (variadic : Bool) : Text :=
  suffix brackets ++ if variadic then ("..." : Text) else []

theorem mem_writtenSuffix {c : Char} {brackets : Nat} {variadic : Bool}
    (member : c ∈ writtenSuffix brackets variadic) : c = '[' ∨ c = ']' ∨ c = '.' := by
  rcases List.mem_append.mp member with bracket | dot
  · rcases mem_suffix bracket with rfl | rfl
    · exact Or.inl rfl
    · exact Or.inr (Or.inl rfl)
  · cases variadic with
    | false => simp at dot
    | true => exact Or.inr (Or.inr (by simpa using dot))

/-- The dots count like one more pair of brackets. -/
theorem IsElementName.splitSuffix_trim_written {base : Text} (isElement : IsElementName base)
    (ne_nil : base ≠ []) (brackets : Nat) (variadic : Bool) :
    splitSuffix (Text.trim (base ++ writtenSuffix brackets variadic)) =
      (base, brackets + variadic.toNat) := by
  obtain ⟨first, last⟩ := Text.trim_eq_self_iff.mp isElement.trimmed
  have whole : Text.trimRight (writtenSuffix brackets variadic) =
      writtenSuffix brackets variadic := by
    refine Text.trimRight_eq_self fun c found => ?_
    rcases mem_writtenSuffix (List.mem_of_getLast? found) with rfl | rfl | rfl <;> decide
  rw [Text.trim_append _ ne_nil first last, whole]
  cases variadic with
  | false =>
    rw [writtenSuffix, if_neg Bool.false_ne_true, List.append_nil]
    exact splitSuffix_append isElement.noSuffix last isElement.ending brackets
  | true =>
    rw [writtenSuffix, if_pos rfl, ← List.append_assoc]
    exact splitSuffix_append_dots isElement.noSuffix last brackets

end JavaType

namespace Scope

variable {scope : Scope} {table : TypeTable} {base : Text}

/-- Except for `void`, of which there are no arrays, the dimensions do not decide what a name stands
for. -/
theorem element?_dimensions (notVoid : base ≠ "void") (dimensions : Nat) :
    scope.element? table base dimensions = scope.element? table base 0 := by
  have primitive : ∀ n, isPrimitive base n = JavaType.primitives.contains base := by
    intro n
    rw [isPrimitive, bne_iff_ne.mpr notVoid, Bool.true_or, Bool.and_true]
  rw [element?, element?, primitive, primitive]

/-- A name with an array suffix is found exactly if the name alone is, and it stands for the same
element type with the dimensions of the suffix. -/
theorem resolve?_writtenSuffix (scope : Scope) (table : TypeTable)
    (isElement : JavaType.IsElementName base) (ne_nil : base ≠ []) (notVoid : base ≠ "void")
    (brackets : Nat) (variadic : Bool) :
    let plain := scope.resolve? table base
    let suffixed := scope.resolve? table (base ++ JavaType.writtenSuffix brackets variadic)
    suffixed = plain.map (·.withDimensions (brackets + variadic.toNat)) ∧
      (suffixed.isSome ↔ plain.isSome) ∧ suffixed.map (·.element) = plain.map (·.element) := by
  intro plain suffixed
  have element : ∀ brackets variadic,
      scope.resolve? table (base ++ JavaType.writtenSuffix brackets variadic) =
        (scope.element? table base 0).map (⟨·, brackets + variadic.toNat⟩) := by
    intro brackets variadic
    rw [resolve?, isElement.splitSuffix_trim_written ne_nil]
    exact congrArg (Option.map _) (element?_dimensions notVoid _)
  have alone : plain = (scope.element? table base 0).map (⟨·, 0⟩) := by
    have bare : base ++ JavaType.writtenSuffix 0 false = base := List.append_nil base
    have found := element 0 false
    rwa [bare] at found
  have same : suffixed = plain.map (·.withDimensions (brackets + variadic.toNat)) := by
    rw [alone, Option.map_map]
    exact element brackets variadic
  refine ⟨same, ?_, ?_⟩
  · rw [same, Option.isSome_map]
  · rw [same, Option.map_map]
    rfl

/-- Arrays of the settings are found like the settings. -/
theorem resolve?_writtenSuffix_settings :
    let plain := inApp.resolve? settings "Settings"
    let suffixed := inApp.resolve? settings ("Settings" ++ JavaType.writtenSuffix 2 true)
    JavaType.IsElementName "Settings" ∧ ("Settings" : Text) ≠ [] ∧ ("Settings" : Text) ≠ "void" ∧
      "Settings" ++ JavaType.writtenSuffix 2 true = "Settings[][]..." ∧
      plain = some ⟨"com.example.App$Settings", 0⟩ ∧
      suffixed = some ⟨"com.example.App$Settings", 3⟩ ∧
      (suffixed.isSome ↔ plain.isSome) ∧ suffixed.map (·.element) = plain.map (·.element) := by
  intro plain suffixed
  have isElement : JavaType.IsElementName "Settings" := by decide +kernel
  have ne_nil : ("Settings" : Text) ≠ [] := by decide
  have notVoid : ("Settings" : Text) ≠ "void" := by decide
  have written : "Settings" ++ JavaType.writtenSuffix 2 true = "Settings[][]..." := by
    decide +kernel
  have found : plain = some ⟨"com.example.App$Settings", 0⟩ := by decide +kernel
  obtain ⟨same, resolved, element⟩ :=
    resolve?_writtenSuffix inApp settings isElement ne_nil notVoid 2 true
  refine ⟨isElement, ne_nil, notVoid, written, found, ?_, resolved, element⟩
  exact same.trans (congrArg (Option.map _) found)

end Scope

end DocAudit
