import DocAudit.Proofs.Scope.ArraySuffix
import DocAudit.Proofs.TypeTable.Lookup
import DocAudit.Scope

/-!
Which types are found under their canonical names. A canonical name shows a nesting as a dot, and the
last dot alone is tried as a nesting when the name is looked up by itself.
-/

set_option autoImplicit false

namespace DocAudit

/-- A name that is looked up as it stands: it is not empty, has no white space around it and no
array suffix, and in its canonical form does not end like a variable number of arguments. -/
structure JavaType.IsTypeName (name : Text) : Prop where
  ne_nil : name ≠ []
  first : name.head?.all (!Text.isBlank ·)
  last : name.getLast?.all (!Text.isBlank ·)
  noSuffix : '[' ∉ name
  ending : ¬ (name.replaceChar '$' '.').endsWith "..."

instance (name : Text) : Decidable (JavaType.IsTypeName name) :=
  decidable_of_iff (name ≠ [] ∧ name.head?.all (!Text.isBlank ·) ∧
      name.getLast?.all (!Text.isBlank ·) ∧ '[' ∉ name ∧
      ¬ (name.replaceChar '$' '.').endsWith "...")
    ⟨fun ⟨ne_nil, first, last, noSuffix, ending⟩ => ⟨ne_nil, first, last, noSuffix, ending⟩,
      fun ⟨ne_nil, first, last, noSuffix, ending⟩ => ⟨ne_nil, first, last, noSuffix, ending⟩⟩

/-- The name has no nesting, or a single one that sets off its last part. -/
def JavaType.NestsAtMostOnce (name : Text) : Prop :=
  '$' ∉ name ∨
    ∃ outer inner, name = outer ++ '$' :: inner ∧ '$' ∉ outer ∧ '.' ∉ inner ∧ '$' ∉ inner

/-- No two types of the table have the same canonical name. -/
def TypeTable.CanonicalNamesDiffer (table : TypeTable) : Prop :=
  ∀ name ∈ table.names, ∀ other ∈ table.names,
    JavaType.canonicalName ⟨name, 0⟩ = JavaType.canonicalName ⟨other, 0⟩ → name = other

instance (table : TypeTable) : Decidable table.CanonicalNamesDiffer :=
  inferInstanceAs (Decidable (∀ name ∈ table.names, ∀ other ∈ table.names, _ → name = other))

namespace JavaType

variable {name : Text}

private theorem not_isBlank_replaced {end? : Option Char} (visible : end?.all (!Text.isBlank ·)) :
    ∀ c ∈ end?.map fun c => if c = '$' then '.' else c, ¬ Text.isBlank c := by
  intro c found
  obtain ⟨written, isEnd, rfl⟩ := Option.map_eq_some_iff.mp found
  have solid : Text.isBlank written = false := by simpa [isEnd] using visible
  split_ifs
  · decide
  · simp [solid]

private theorem IsTypeName.isElementName (isName : IsTypeName name) :
    IsElementName (name.replaceChar '$' '.') where
  trimmed := by
    refine Text.trim_eq_self_iff.mpr ⟨?_, ?_⟩
    · rw [Text.replaceChar, List.head?_map]
      exact not_isBlank_replaced isName.first
    · rw [Text.replaceChar, List.getLast?_map]
      exact not_isBlank_replaced isName.last
  noSuffix := by simp [Text.mem_replaceChar_iff, isName.noSuffix]
  ending := isName.ending

theorem IsTypeName.splitSuffix_canonicalName (isName : IsTypeName name) (dimensions : Nat) :
    splitSuffix (Text.trim (canonicalName ⟨name, dimensions⟩)) =
      (name.replaceChar '$' '.', dimensions) := by
  have ne_nil : name.replaceChar '$' '.' ≠ [] := by
    simpa [Text.replaceChar] using isName.ne_nil
  exact isName.isElementName.splitSuffix_trim ne_nil dimensions

/-- A nesting that sets off the last part is the last dot of the canonical name. -/
theorem replaceChar_nested {outer inner : Text} (unnestedOuter : '$' ∉ outer)
    (unnested : '$' ∉ inner) :
    (outer ++ '$' :: inner).replaceChar '$' '.' = outer ++ '.' :: inner := by
  have parts : (outer ++ '$' :: inner).replaceChar '$' '.' =
      outer.replaceChar '$' '.' ++ '.' :: inner.replaceChar '$' '.' := by
    simp [Text.replaceChar]
  rw [parts, Text.replaceChar_eq_self unnestedOuter, Text.replaceChar_eq_self unnested]

end JavaType

namespace Scope

variable {scope : Scope} {table : TypeTable} {name candidate outer inner : Text} {dimensions : Nat}

theorem nestedInLast_append (undotted : '.' ∉ inner) :
    nestedInLast (outer ++ '.' :: inner) = [outer ++ '$' :: inner] := by
  rw [nestedInLast, Text.cutLast?_beq_eq_some_iff.mpr ⟨rfl, undotted⟩]
  exact congrArg (List.cons · []) (List.append_assoc outer ['$'] inner)

theorem exists_of_mem_nestedInLast (member : candidate ∈ nestedInLast name) :
    ∃ outer inner, name = outer ++ '.' :: inner ∧ '.' ∉ inner ∧
      candidate = outer ++ '$' :: inner := by
  rw [nestedInLast] at member
  cases cut : name.cutLast? (· == '.') with
  | none => simp [cut] at member
  | some parts =>
    obtain ⟨outer, inner⟩ := parts
    obtain ⟨split, undotted⟩ := Text.cutLast?_beq_eq_some_iff.mp cut
    refine ⟨outer, inner, split, undotted, ?_⟩
    simpa [cut] using member

private theorem length_lt_of_mem_within {holder : Text}
    (member : candidate ∈ within holder name) : name.length < candidate.length := by
  have dot : ".".toList.length = 1 := rfl
  have dollar : "$".toList.length = 1 := rfl
  rw [within] at member
  split_ifs at member
  · simp at member
  · simp only [List.mem_cons, List.not_mem_nil, or_false] at member
    rcases member with rfl | rfl | rfl <;>
      simp only [List.length_append, Text.length_replaceChar] <;> omega

/-- Apart from the name with its last part nested, a name stands for longer names only. -/
theorem mem_nestedInLast_of_length_le (member : candidate ∈ scope.qualified name)
    (notLonger : candidate.length ≤ name.length) : candidate ∈ nestedInLast name := by
  simp only [qualified, List.mem_append, List.mem_filter, List.mem_flatMap,
    List.mem_singleton] at member
  rcases member with ((((nested | inPackage) | inEnclosing) | ⟨-, ending⟩) | inImport) | rfl
  · exact nested
  · have longer := length_lt_of_mem_within inPackage
    omega
  · have longer := length_lt_of_mem_within inEnclosing
    omega
  · have longer := (List.isSuffixOf_iff_suffix.mp ending).length_le
    rw [List.length_cons] at longer
    omega
  · obtain ⟨holder, -, inHolder⟩ := inImport
    have longer := length_lt_of_mem_within inHolder
    omega
  · have language : "java.lang.".toList.length = 10 := rfl
    rw [List.length_append] at notLonger
    omega

theorem element?_of_contains (known : table.contains name) (ne_nil : name ≠ []) :
    scope.element? table name dimensions = some name := by
  rw [element?, if_neg (by simpa using ne_nil), if_pos (by simp [known])]

/-- A name stands for a known type or a primitive one. -/
theorem contains_or_isPrimitive_of_element? {element : Text}
    (found : scope.element? table name dimensions = some element) :
    table.contains element ∨ isPrimitive element dimensions := by
  rw [element?] at found
  split_ifs at found with nothing direct
  · obtain rfl := Option.some.inj found
    exact Bool.or_eq_true_iff.mp direct
  · exact Or.inl (List.find?_some found)

/-- A name stands for the element type of its part before the suffix, with the dimensions of the
suffix. -/
theorem resolve?_eq_some_iff {query : Text} {ty : JavaType} :
    scope.resolve? table query = some ty ↔
      scope.element? table (JavaType.splitSuffix query.trim).1
          (JavaType.splitSuffix query.trim).2 = some ty.element ∧
        ty.dimensions = (JavaType.splitSuffix query.trim).2 := by
  simp only [resolve?, Option.map_eq_some_iff]
  constructor
  · rintro ⟨element, stands, rfl⟩
    exact ⟨stands, rfl⟩
  · rintro ⟨stands, same⟩
    exact ⟨ty.element, stands, by rw [← same]⟩

theorem resolve?_of_contains (known : table.contains name)
    (isWhole : name ≠ [] ∧ JavaType.splitSuffix name.trim = (name, 0)) (scope : Scope) :
    scope.resolve? table name = some ⟨name, 0⟩ := by
  have direct : scope.element? table name 0 = some name := element?_of_contains known isWhole.1
  simp only [resolve?, isWhole.2, direct, Option.map_some]

private theorem not_isPrimitive_of_dot (dotted : '.' ∈ name) : ¬ isPrimitive name dimensions := by
  have undotted : ∀ primitive ∈ JavaType.primitives, '.' ∉ primitive := by decide
  intro isPrimitive
  have member := List.contains_iff_mem.mp (Bool.and_eq_true_iff.mp isPrimitive).1
  exact undotted name member dotted

private theorem not_mem_replaceChar_nesting : '$' ∉ name.replaceChar '$' '.' := by
  simp [Text.mem_replaceChar_iff]

/-- The canonical name of a nested type is not the name of another one. -/
private theorem not_contains_canonical (distinct : table.CanonicalNamesDiffer)
    (known : table.contains name) (nested : '$' ∈ name) :
    ¬ table.contains (name.replaceChar '$' '.') := by
  intro direct
  have same : JavaType.canonicalName ⟨name.replaceChar '$' '.', 0⟩ =
      JavaType.canonicalName ⟨name, 0⟩ := by
    rw [JavaType.canonicalName, JavaType.canonicalName,
      Text.replaceChar_eq_self not_mem_replaceChar_nesting]
  have itself := distinct _ (TypeTable.contains_iff_mem_names.mp direct) _
    (TypeTable.contains_iff_mem_names.mp known) same
  have unnested : '$' ∉ name := by
    rw [← itself]
    exact not_mem_replaceChar_nesting
  exact unnested nested

private theorem nestsAtMostOnce_of_element?
    (found : scope.element? table (name.replaceChar '$' '.') dimensions = some name) :
    JavaType.NestsAtMostOnce name := by
  have unnested : '$' ∉ name.replaceChar '$' '.' := not_mem_replaceChar_nesting
  rw [element?] at found
  split_ifs at found with nothing direct
  · rw [Option.some.inj found] at unnested
    exact Or.inl unnested
  -- The name is as long as its canonical form, and so are no other candidates for it.
  · have member := mem_nestedInLast_of_length_le (List.mem_of_find?_eq_some found)
      Text.length_replaceChar.ge
    obtain ⟨outer, inner, split, undotted, nested⟩ := exists_of_mem_nestedInLast member
    rw [split] at unnested
    refine Or.inr ⟨outer, inner, nested, fun inOuter => ?_, undotted, fun inInner => ?_⟩
    · exact unnested (List.mem_append_left _ inOuter)
    · exact unnested (List.mem_append_right _ (List.mem_cons_of_mem _ inInner))

private theorem element?_of_nestsAtMostOnce (distinct : table.CanonicalNamesDiffer)
    (known : table.contains name) (ne_nil : name ≠ []) (once : JavaType.NestsAtMostOnce name) :
    scope.element? table (name.replaceChar '$' '.') dimensions = some name := by
  rcases once with unnested | ⟨outer, inner, rfl, unnestedOuter, undotted, unnested⟩
  · rw [Text.replaceChar_eq_self unnested]
    exact element?_of_contains known ne_nil
  · have dotted : '.' ∈ outer ++ '.' :: inner := List.mem_append_right outer List.mem_cons_self
    have unknown := not_contains_canonical distinct known
      (List.mem_append_right outer List.mem_cons_self)
    rw [JavaType.replaceChar_nested unnestedOuter unnested] at unknown ⊢
    rw [element?, if_neg (by simp), if_neg, qualified, nestedInLast_append undotted]
    · simp [known]
    · simpa [unknown] using not_isPrimitive_of_dot dotted

/-- A type is found under its canonical name exactly when it nests at most once. -/
theorem resolve?_canonicalName_iff (distinct : table.CanonicalNamesDiffer)
    (known : table.contains name) (isName : JavaType.IsTypeName name) (scope : Scope)
    (dimensions : Nat) :
    scope.resolve? table (JavaType.canonicalName ⟨name, dimensions⟩) = some ⟨name, dimensions⟩ ↔
      JavaType.NestsAtMostOnce name := by
  have element : scope.resolve? table (JavaType.canonicalName ⟨name, dimensions⟩) =
      (scope.element? table (name.replaceChar '$' '.') dimensions).map (⟨·, dimensions⟩) := by
    rw [resolve?, isName.splitSuffix_canonicalName]
  rw [element, Option.map_eq_some_iff]
  constructor
  · rintro ⟨found, standsFor, same⟩
    obtain rfl : found = name := congrArg JavaType.element same
    exact nestsAtMostOnce_of_element? standsFor
  · intro once
    exact ⟨name, element?_of_nestsAtMostOnce distinct known isName.ne_nil once, rfl⟩

/-- An application, its settings and the entries of these, each nested in the one before. -/
def settings : TypeTable :=
  TypeTable.empty.declare "com.example.App" .classType
    |>.declare "com.example.App$Settings" .classType
    |>.declare "com.example.App$Settings$Entry" .classType

def inApp : Scope :=
  ⟨"com.example", "com.example.App", []⟩

/-- The settings are found under their canonical name. -/
theorem resolve?_settings :
    settings.CanonicalNamesDiffer ∧ settings.contains "com.example.App$Settings" ∧
      JavaType.IsTypeName "com.example.App$Settings" ∧
      inApp.resolve? settings "com.example.App.Settings" =
        some ⟨"com.example.App$Settings", 0⟩ := by
  have distinct : settings.CanonicalNamesDiffer := by decide +kernel
  have known : settings.contains "com.example.App$Settings" := by decide +kernel
  have isName : JavaType.IsTypeName "com.example.App$Settings" := by decide +kernel
  have once : JavaType.NestsAtMostOnce "com.example.App$Settings" :=
    Or.inr ⟨"com.example.App", "Settings", rfl, by decide, by decide, by decide⟩
  exact ⟨distinct, known, isName,
    (resolve?_canonicalName_iff distinct known isName inApp 0).mpr once⟩

/-- An entry is found under the name that its package gives it, and not under its canonical name. -/
theorem resolve?_entry :
    settings.CanonicalNamesDiffer ∧ settings.contains "com.example.App$Settings$Entry" ∧
      JavaType.canonicalName ⟨"com.example.App$Settings$Entry", 0⟩ =
        "com.example.App.Settings.Entry" ∧
      inApp.resolve? settings "App.Settings.Entry" =
        some ⟨"com.example.App$Settings$Entry", 0⟩ ∧
      inApp.resolve? settings "com.example.App.Settings.Entry" = none := by
  decide +kernel

end Scope

end DocAudit
