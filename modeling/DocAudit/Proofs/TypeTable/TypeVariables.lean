import DocAudit.Proofs.Erasure.Spelling
import DocAudit.Proofs.Java.Words
import DocAudit.Proofs.TypeTable.Redeclaration

/-!
Parameters whose type is a type variable. One of the method or of its own type becomes its first
bound. Those of enclosing types are not looked for, and are kept like types of their names.
-/

set_option autoImplicit false

namespace DocAudit

namespace Erasure

variable {scope : Scope} {table : TypeTable} {inScope : List TypeVariable}
  {name type : Text} {dimensions : Nat}

/-- Apart from white space the type is written as this name with so many dimensions, each of them a
pair of brackets or the last of them three dots. -/
def Writes (name : Text) (dimensions : Nat) (type : Text) : Prop :=
  type.filter (!Text.isBlank ·) = name ++ JavaType.suffix dimensions ∨
    0 < dimensions ∧
      type.filter (!Text.isBlank ·) = name ++ JavaType.suffix (dimensions - 1) ++ "..."

instance (name : Text) (dimensions : Nat) (type : Text) : Decidable (Writes name dimensions type) :=
  inferInstanceAs (Decidable (_ ∨ _ ∧ _))

private theorem Writes.mem_or {c : Char} (written : Writes name dimensions type)
    (member : c ∈ type) (solid : Text.isBlank c = false) : c ∈ name ∨ c ∈ ['[', ']', '.'] := by
  have kept : c ∈ type.filter (!Text.isBlank ·) := List.mem_filter.mpr ⟨member, by simp [solid]⟩
  have ofSuffix {n : Nat} (inSuffix : c ∈ JavaType.suffix n) : c ∈ ['[', ']', '.'] := by
    rcases JavaType.mem_suffix inSuffix with rfl | rfl <;> decide
  rcases written with brackets | ⟨-, dots⟩
  · rw [brackets, List.mem_append] at kept
    exact kept.imp_right ofSuffix
  · rw [dots, List.mem_append, List.mem_append] at kept
    rcases kept with (inName | inSuffix) | inDots
    · exact Or.inl inName
    · exact Or.inr (ofSuffix inSuffix)
    · have dots : "...".toList = List.replicate 3 '.' := rfl
      rw [dots] at inDots
      obtain rfl := List.eq_of_mem_replicate inDots
      exact Or.inr (by decide)

private theorem Writes.plain (isName : Java.IsName name) (written : Writes name dimensions type) :
    ∀ c ∈ type, c ≠ '<' ∧ c ≠ '>' := by
  intro c member
  constructor <;> rintro rfl <;> rcases written.mem_or member (by decide) with inName | mark
  iterate 2
    · exact absurd (isName _ inName) (by decide)
    · exact absurd mark (by decide)

/-- The brackets and dots of a written type are read as brackets. -/
private theorem Writes.read (isName : Java.IsName name) (written : Writes name dimensions type) :
    dotsToBrackets (dropArguments 0 type) = name ++ JavaType.suffix dimensions := by
  have undotted : '.' ∉ name := fun member => absurd (isName '.' member) (by decide)
  rw [dropArguments_of_plain (written.plain isName)]
  rcases written with same | ⟨positive, same⟩
  · have brackets := dotsToBrackets_suffix dimensions false
    simp only [Bool.false_eq_true, if_false, List.append_nil, Bool.toNat_false, Nat.add_zero]
      at brackets
    rw [same, dotsToBrackets_append undotted, brackets]
  · have all : dimensions - 1 + 1 = dimensions := Nat.sub_add_cancel positive
    have dots := dotsToBrackets_suffix (dimensions - 1) true
    simp only [if_true, Bool.toNat_true, all] at dots
    rw [same, List.append_assoc, dotsToBrackets_append undotted]
    exact congrArg (name ++ ·) dots

/-- A name with some dimensions becomes the bound of the innermost type variable of this name, and
without such a variable the type that it stands for. -/
private theorem erase_of_writes (isName : Java.IsName name)
    (written : Writes name dimensions type) :
    erase scope table inScope type = ((inScope.find? fun v => v.name == name).elim
      (named scope table name) (bound scope table)).withDimensions dimensions :=
  erase_of_read (fun member => absurd (isName '[' member) (by decide)) (written.read isName)

theorem erase_of_find? {v : TypeVariable} (isName : Java.IsName name)
    (written : Writes name dimensions type) (innermost : inScope.find? (·.name == name) = some v) :
    erase scope table inScope type = (bound scope table v).withDimensions dimensions := by
  rw [erase_of_writes isName written, innermost, Option.elim_some]

/-- A name that stands for nothing is kept. -/
theorem erase_of_unknown (isName : Java.IsName name) (written : Writes name dimensions type)
    (others : ∀ v ∈ inScope, v.name ≠ name) (unknown : scope.resolve? table name = none) :
    erase scope table inScope type = ⟨name, dimensions⟩ := by
  rw [erase_of_writes isName written, find?_eq_none_of_others others, Option.elim_none, named, unknown]
  rfl

end Erasure

namespace TypeTable

variable {units : List CompilationUnit} {unit : CompilationUnit} {t : TypeDeclaration}

/-- The methods of a declared type are those of its last declaration. -/
private theorem methods_ofUnits_of_getLast? {scope : Scope}
    (isLast : (declarationsOf t.binaryName units).getLast? = some (scope, t)) :
    (ofUnits units).methods ⟨t.binaryName, 0⟩ = t.methodSignatures scope (ofUnits units) := by
  have known : (ofUnits units).known? ⟨t.binaryName, 0⟩ = some {
      t.erased scope (declared units) with
      superclass := (writtenSuperclass? t.binaryName units).or
        (KnownType.implicitSuperclass t.binaryName t.kind) } := find?_ofUnits_of_getLast? isLast
  have same : t.erased scope (ofUnits units) = t.erased scope (declared units) :=
    TypeDeclaration.erased_congr sameNames_declared scope t
  rw [methods, known]
  exact congrArg KnownType.methods same.symm

/-- A parameter that is a type variable of its method or of the method's own type is stored and
checked as the first bound of the innermost one. Any other name that stands for no type is kept, even
where an enclosing type declares it as a type variable. -/
theorem erased_type_variables (units : List CompilationUnit) (unit : CompilationUnit)
    (t : TypeDeclaration) (own : List TypeVariable) :
    let scope := Scope.ofUnit unit (JavaType.outermost t.binaryName)
    let table := ofUnits units
    let erased := Erasure.erase scope table (own ++ t.typeVariables)
    ((declarationsOf t.binaryName units).getLast? = some (scope, t) →
      ∀ name types, .method name types own ∈ t.members →
        ⟨name, types.map erased⟩ ∈ table.methods ⟨t.binaryName, 0⟩) ∧
    (unit.types.find? (·.binaryName == t.binaryName) = some t →
      ∀ d : Declaration, d.owner = t.binaryName → d.outermost = JavaType.outermost t.binaryName →
        d.typeVariables = own → d.erasedParameters unit table = d.parameters.map (erased ·.type)) ∧
    ∀ v n type, Java.IsName v → Erasure.Writes v n type →
      (∀ x, (own ++ t.typeVariables).find? (·.name == v) = some x →
        erased type = (Erasure.bound scope table x).withDimensions n) ∧
      ((∀ x ∈ own ++ t.typeVariables, x.name ≠ v) → scope.resolve? table v = none →
        erased type = ⟨v, n⟩) := by
  intro scope table erased
  refine ⟨fun isLast name types declares => ?_, fun isFirst d owner outermost typeVariables => ?_,
    fun v n type isName written => ⟨fun x innermost => ?_, fun others unknown => ?_⟩⟩
  · rw [methods_ofUnits_of_getLast? isLast]
    exact List.mem_append_left _ (List.mem_filterMap.mpr ⟨_, declares, rfl⟩)
  · rw [Declaration.erasedParameters, owner, isFirst, outermost, typeVariables]
  · exact Erasure.erase_of_find? isName written innermost
  · exact Erasure.erase_of_unknown isName written others unknown

/-- A generic class. -/
def box : TypeDeclaration where
  kind := .classType
  binaryName := "shop.Box"
  superclass := none
  interfaces := []
  typeVariables := [⟨"T", none⟩]
  members := []
  components := []

/-- An inner class of the generic one, with a method that has a type variable of its own. -/
def lid : TypeDeclaration :=
  { box with
    binaryName := "shop.Box$Lid", typeVariables := []
    members := [.method "fit" ["T[]", "E..."] [⟨"E", none⟩]] }

/-- The method of the inner class. -/
def fitLid : Declaration :=
  { addToCart with
    name := "fit", owner := "shop.Box$Lid", outermost := "shop.Box"
    parameters := [⟨"items", "T[]"⟩, ⟨"extras", "E..."⟩], typeVariables := [⟨"E", none⟩] }

def boxUnit : CompilationUnit := ⟨some "shop", [], [box, lid], [fitLid]⟩

/-- A literal is taken apart without decoding it, so that the many names are read fast. -/
private theorem last_letter_ofList {letters : Text} (other : letters.getLast? ≠ some 'T') :
    (String.ofList letters).toList.getLast? ≠ some 'T' := by
  rwa [String.toList_ofList]

private theorem last_letter_platform_types :
    ∀ t ∈ Platform.types, t.name.toList.getLast? ≠ some 'T' := by
  simp only [Platform.types, List.forall_mem_append]
  refine ⟨⟨⟨⟨⟨?_, ?_⟩, ?_⟩, ?_⟩, ?_⟩, ?_⟩
  all_goals
    repeat refine List.forall_mem_cons.mpr ⟨last_letter_ofList (by decide +kernel), ?_⟩
    exact List.forall_mem_nil _

/-- In the inner class the type variable of the enclosing class stands for no type. -/
private theorem resolve?_type_variable :
    (Scope.ofUnit boxUnit "shop.Box").resolve? (ofUnits [boxUnit]) "T" = none := by
  have unknown : ∀ name : Text, name.getLast? = some 'T' →
      (ofUnits [boxUnit]).contains name = false := by
    intro name last
    refine Bool.eq_false_iff.mpr fun known => ?_
    rcases contains_ofUnits_iff.mp known with ofPlatform | declares
    · obtain ⟨t, among, rfl⟩ := mem_types_of_platform_contains ofPlatform
      exact last_letter_platform_types t among last
    · obtain ⟨unit, member, t, ofUnit, rfl⟩ := declares
      obtain rfl := List.mem_singleton.mp member
      have others : ∀ t ∈ boxUnit.types, t.binaryName.getLast? ≠ some 'T' := by decide +kernel
      exact others t ofUnit last
  have candidates : ∀ name ∈ (Scope.ofUnit boxUnit "shop.Box").qualified "T",
      name.getLast? = some 'T' := by decide +kernel
  have none : ((Scope.ofUnit boxUnit "shop.Box").qualified "T").find?
      (ofUnits [boxUnit]).contains = none :=
    List.find?_eq_none.mpr fun name member => by simp [unknown name (candidates name member)]
  have whole : JavaType.splitSuffix (Text.trim "T") = ("T".toList, 0) := by decide +kernel
  have other : Scope.isPrimitive "T" 0 = false := by decide +kernel
  rw [Scope.resolve?, whole]
  simp only [Scope.element?, unknown "T" rfl, other, none]
  rfl

/-- The method has the bound of its own type variable and the name of the other. -/
theorem erased_type_variables_lid :
    let erased : List JavaType := [⟨"T", 1⟩, ⟨"java.lang.Object", 1⟩]
    (declarationsOf lid.binaryName [boxUnit]).getLast? =
        some (.ofUnit boxUnit (JavaType.outermost lid.binaryName), lid) ∧
      boxUnit.types.find? (·.binaryName == lid.binaryName) = some lid ∧
      ⟨"fit", erased⟩ ∈ (ofUnits [boxUnit]).methods ⟨lid.binaryName, 0⟩ ∧
      fitLid.erasedParameters boxUnit (ofUnits [boxUnit]) = erased := by
  intro erased
  have isLast : (declarationsOf lid.binaryName [boxUnit]).getLast? =
      some (.ofUnit boxUnit (JavaType.outermost lid.binaryName), lid) := rfl
  have isFirst : boxUnit.types.find? (·.binaryName == lid.binaryName) = some lid := rfl
  have brackets : Erasure.Writes "T" 1 "T[]" := by decide +kernel
  have dots : Erasure.Writes "E" 1 "E..." := by decide +kernel
  obtain ⟨stored, checked, types⟩ := erased_type_variables [boxUnit] boxUnit lid [⟨"E", none⟩]
  have items := (types "T" 1 "T[]" (by decide +kernel) brackets).2 (by decide +kernel)
    resolve?_type_variable
  have extras := (types "E" 1 "E..." (by decide +kernel) dots).1 ⟨"E", none⟩ rfl
  have method := stored isLast "fit" ["T[]", "E..."] (by decide +kernel)
  have parameters := checked isFirst fitLid rfl (by decide +kernel) rfl
  rw [List.map_cons, List.map_cons, items, extras] at method
  refine ⟨isLast, isFirst, method, ?_⟩
  rw [parameters, fitLid, List.map_cons, List.map_cons, items, extras]
  rfl

/-- The type variable of the enclosing class has no bound, and yet its arrays are not taken for arrays
of objects in the inner class. -/
theorem type_variable_of_enclosing_type_kept :
    boxUnit.types = [box, lid] ∧ (box.binaryName ++ "$").isPrefixOf lid.binaryName ∧
      ⟨"T", none⟩ ∈ box.typeVariables ∧
      (∀ v ∈ fitLid.typeVariables ++ lid.typeVariables, v.name ≠ "T") ∧
      fitLid.parameters.map (·.type) = ["T[]".toList, "E...".toList] ∧
      .method fitLid.name (fitLid.parameters.map (·.type)) fitLid.typeVariables ∈ lid.members ∧
      (Scope.ofUnit boxUnit fitLid.outermost).resolve? (ofUnits [boxUnit]) "T" = none ∧
      (∀ m ∈ (ofUnits [boxUnit]).methods ⟨lid.binaryName, 0⟩,
        m.parameters.head? ≠ some ⟨"java.lang.Object", 1⟩) ∧
      (fitLid.erasedParameters boxUnit (ofUnits [boxUnit])).head? ≠
        some ⟨"java.lang.Object", 1⟩ := by
  have others : ∀ v ∈ fitLid.typeVariables ++ lid.typeVariables, v.name ≠ "T" := by decide +kernel
  have items : Erasure.erase (.ofUnit boxUnit "shop.Box") (ofUnits [boxUnit])
      (fitLid.typeVariables ++ lid.typeVariables) "T[]" = ⟨"T", 1⟩ :=
    Erasure.erase_of_unknown (by decide +kernel) (by decide +kernel) others resolve?_type_variable
  have different : (⟨"T", 1⟩ : JavaType) ≠ ⟨"java.lang.Object", 1⟩ := by decide +kernel
  have encloses : (box.binaryName ++ "$").isPrefixOf lid.binaryName := by decide +kernel
  have isVariable : ⟨"T", none⟩ ∈ box.typeVariables := List.mem_cons_self
  refine ⟨rfl, encloses, isVariable, others, rfl, List.mem_cons_self, resolve?_type_variable,
    fun m stored same => ?_, fun same => ?_⟩
  · have isLast : (declarationsOf lid.binaryName [boxUnit]).getLast? =
        some (.ofUnit boxUnit "shop.Box", lid) := rfl
    rw [methods_ofUnits_of_getLast? isLast] at stored
    obtain rfl := List.mem_singleton.mp stored
    exact different (items.symm.trans (Option.some.inj same))
  · exact different (items.symm.trans (Option.some.inj same))

end TypeTable

end DocAudit
