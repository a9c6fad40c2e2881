import DocAudit.Proofs.Check.Origin
import DocAudit.Proofs.Scope.CanonicalName

/-!
What violations quote. A message spans lines only where it quotes something that does, and most of
what is quoted cannot: words, the names of tags, and names of known types.
-/

set_option autoImplicit false

namespace DocAudit

namespace Violation

/-- What a violation quotes. -/
def quotes : Violation → List Text
  | malformedReference tag | malformedThrows tag | malformedOverload tag | illegalThrows tag => [tag]
  | malformedParam text | illegalParam text => [text]
  | unresolvedException name | unresolvedReferencedType name | unresolvedSpecifiedType name
  | unresolvedArgumentType name | undocumentedParameter name | undocumentedException name
  | unknownParameter name | exceptionNotThrown name | missingOverride name => [name]
  | memberNotFound tag reference type => [tag, reference, type]
  | constructorNotFound signature type | methodNotFound signature type => [signature, type]
  | _ => []

section Messages

private theorem inLine_phrase {letters : Text} (inLine : '\n' ∉ letters) :
    '\n' ∉ (String.ofList letters).toList ↔ ∀ u ∈ ([] : List Text), '\n' ∉ u :=
  iff_of_true (Text.inLine_ofList inLine) (List.forall_mem_nil _)

private theorem inLine_quote {before letters : Text} {quoted : List Text}
    (earlier : '\n' ∉ before ↔ ∀ u ∈ quoted, '\n' ∉ u) (inLine : '\n' ∉ letters) (t : Text) :
    '\n' ∉ before ++ t ++ (String.ofList letters).toList ↔ ∀ u ∈ quoted ++ [t], '\n' ∉ u := by
  have phrase := Text.inLine_ofList inLine
  rw [List.forall_mem_append, List.forall_mem_singleton, ← earlier]
  simp only [List.mem_append, phrase, or_false, not_or]

/-- A message stands on one line exactly if all that it quotes does. -/
theorem inLine_message_iff (v : Violation) : '\n' ∉ v.message ↔ ∀ t ∈ v.quotes, '\n' ∉ t := by
  cases v with
  | malformedReference t | malformedThrows t | malformedOverload t | illegalThrows t
  | malformedParam t | illegalParam t | unresolvedException t | unresolvedReferencedType t
  | unresolvedSpecifiedType t | unresolvedArgumentType t | undocumentedParameter t
  | undocumentedException t | unknownParameter t | exceptionNotThrown t | missingOverride t =>
    exact inLine_quote (inLine_phrase (by decide +kernel)) (by decide +kernel) t
  | constructorNotFound signature type | methodNotFound signature type =>
    exact inLine_quote (inLine_quote (inLine_phrase (by decide +kernel)) (by decide +kernel)
      signature) (by decide +kernel) type
  | memberNotFound tag reference type =>
    exact inLine_quote (inLine_quote (inLine_quote (inLine_phrase (by decide +kernel))
      (by decide +kernel) tag) (by decide +kernel) reference) (by decide +kernel) type
  | commentTooShort minimum actual =>
    have number : ∀ u ∈ [Text.ofNat minimum], '\n' ∉ u :=
      List.forall_mem_singleton.mpr (Text.inLine_ofNat minimum)
    refine iff_of_true (fun member => ?_) (List.forall_mem_nil _)
    rcases List.mem_append.mp member with early | late
    · exact absurd early (Iff.mpr (inLine_quote (inLine_phrase (by decide +kernel))
        (by decide +kernel) (Text.ofNat minimum)) number)
    · exact Text.inLine_ofNat actual late
  | inheritDocWithoutSupertype => exact iff_of_true (by decide +kernel) (List.forall_mem_nil _)
  | _ => exact inLine_phrase (by decide +kernel)

end Messages

end Violation

/-- The names of all known types stand on one line each. -/
def TypeTable.InLine (table : TypeTable) : Prop :=
  ∀ name, table.contains name → '\n' ∉ name

section Types

variable {scope : Scope} {table : TypeTable} {name : Text} {ty : JavaType}

private theorem JavaType.inLine_canonicalName (element : '\n' ∉ ty.element) :
    '\n' ∉ ty.canonicalName := by
  intro member
  rcases List.mem_append.mp member with inName | inSuffix
  · rcases Text.mem_replaceChar_iff.mp inName with ⟨inElement, -⟩ | ⟨dot, -⟩
    · exact element inElement
    · exact absurd dot (by decide)
  · rcases JavaType.mem_suffix inSuffix with bracket | bracket
    · exact absurd bracket (by decide)
    · exact absurd bracket (by decide)

theorem Scope.inLine_of_resolve? (known : table.InLine)
    (resolved : scope.resolve? table name = some ty) : '\n' ∉ ty.canonicalName := by
  rw [resolve?] at resolved
  obtain ⟨element, found, rfl⟩ := Option.map_eq_some_iff.mp resolved
  refine JavaType.inLine_canonicalName ?_
  rcases contains_or_isPrimitive_of_element? found with isKnown | isPrimitive
  · exact known element isKnown
  · have primitives : ∀ primitive ∈ JavaType.primitives, '\n' ∉ primitive := by decide +kernel
    exact primitives element
      (List.contains_iff_mem.mp (Bool.and_eq_true_iff.mp isPrimitive).1)

end Types

namespace Signature

private theorem everySecond_subset {α : Type} (l : List α) : everySecond l ⊆ l := by
  fun_induction everySecond l with
  | case1 => exact List.Subset.refl _
  | case2 a => exact List.Subset.refl _
  | case3 a b rest ih =>
    exact List.cons_subset_cons a (List.Subset.trans ih (List.subset_cons_self b rest))

/-- The types of a parameter list are words. -/
theorem solid_of_mem_typeNames {list name : Text} (member : name ∈ typeNames list) :
    ∀ c ∈ name, ¬ Text.isBlank c := by
  obtain ⟨item, -, among⟩ := List.mem_flatMap.mp member
  exact Text.solid_of_mem_words (everySecond_subset _ among)

end Signature

section Quotes

variable {v : Violation}

/-- A reference that stands on one line is blamed on one line. -/
theorem Reference.Blames.inLine {scope : Scope} {table : TypeTable} {own tag reference : Text}
    (blames : Blames scope table own tag reference v) (known : table.InLine) (ownInLine : '\n' ∉ own)
    (tagInLine : '\n' ∉ tag) (inLine : '\n' ∉ reference) : ∀ t ∈ v.quotes, '\n' ∉ t := by
  cases blames with
  | type => exact List.forall_mem_singleton.mpr inLine
  | owner whose =>
    refine List.forall_mem_singleton.mpr ?_
    rcases whose with rfl | part
    · exact ownInLine
    · exact fun member => inLine (part member)
  | member resolved =>
    have type := Scope.inLine_of_resolve? known resolved
    simp [Violation.quotes, tagInLine, inLine, type]
  | overload => exact List.forall_mem_singleton.mpr tagInLine
  | argument among =>
    exact List.forall_mem_singleton.mpr
      (Text.inLine_of_solid (Signature.solid_of_mem_typeNames among))
  | constructor resolved part | method resolved part =>
    have type := Scope.inLine_of_resolve? known resolved
    have signature : '\n' ∉ _ := fun member => inLine (part member)
    simp [Violation.quotes, signature, type]

namespace Check

variable {s : Subject}

private theorem inLine_of_mem_referenceTags {name : Text} (member : name ∈ referenceTags) :
    '\n' ∉ name := by
  have each : ∀ tag ∈ referenceTags, '\n' ∉ tag := by decide +kernel
  exact each name member

private theorem inLine_of_mem_spellings {name : Text}
    (member : name ∈ TagName.throws.spellings) : '\n' ∉ name := by
  have each : ∀ tag ∈ TagName.throws.spellings, '\n' ∉ tag := by decide +kernel
  exact each name member

private theorem inLine_firstWord (t : Text) : '\n' ∉ t.firstWord :=
  Text.inLine_of_solid fun c member => by
    simpa using List.mem_takeWhile_imp member

/-- What a tag is blamed for stands on one line, unless it is a parameter tag out of place or its
reference spans lines. -/
theorem Blames.inLine {name argument : Text} (blames : Blames s name argument v)
    (known : s.table.InLine) (own : '\n' ∉ s.declaration.owner)
    (misplaced : name = "param" → s.allowsParam = false → '\n' ∉ argument.trim)
    (reference : name ∈ referenceTags → s.settings.checkReferences →
      '\n' ∉ Reference.extract 0 argument.trim) : ∀ t ∈ v.quotes, '\n' ∉ t := by
  cases blames with
  | wordless silent =>
    have silence : ∀ w ∈ Check.wordless, w.quotes = [] := by decide
    rw [silence v silent]
    exact List.forall_mem_nil _
  | noReference named => exact List.forall_mem_singleton.mpr (inLine_of_mem_referenceTags named)
  | misplacedParam named refused => exact List.forall_mem_singleton.mpr (misplaced named refused)
  | noDescription solid | unknownParameter solid =>
    exact List.forall_mem_singleton.mpr (Text.inLine_of_solid solid)
  | misplacedThrows named | noException named =>
    exact List.forall_mem_singleton.mpr (inLine_of_mem_spellings named)
  | unresolvedException | notThrown => exact List.forall_mem_singleton.mpr (inLine_firstWord _)
  | reference checked named wrong =>
    exact wrong.inLine known own (inLine_of_mem_referenceTags named) (reference named checked)

end Check

end Quotes

end DocAudit
