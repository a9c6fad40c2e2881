import DocAudit.Proofs.TypeTable.Lookup
import DocAudit.TypeTable.OfUnits
import Mathlib.Data.List.Nodup

/-!
The erased signatures in a project's table are those that a check computes for its declarations:
the former while the types are only declared, the latter from the finished table.
-/

set_option autoImplicit false

namespace DocAudit

/-- Two tables know the same names. -/
def TypeTable.SameNames (table table' : TypeTable) : Prop :=
  ∀ name, table.contains name = table'.contains name

section Resolution

variable {table table' : TypeTable} {scope : Scope}

private theorem Scope.element?_congr (same : table.SameNames table') (name : Text)
    (dimensions : Nat) :
    scope.element? table name dimensions = scope.element? table' name dimensions := by
  have contains : table.contains = table'.contains := funext same
  rw [element?, element?, contains]

/-- What a name stands for depends on nothing but the known names. -/
theorem Scope.resolve?_congr (same : table.SameNames table') (name : Text) :
    scope.resolve? table name = scope.resolve? table' name := by
  rw [resolve?, resolve?]
  exact congrArg (Option.map _) (element?_congr same _ _)

private theorem Erasure.named_congr (same : table.SameNames table') (name : Text) :
    named scope table name = named scope table' name := by
  rw [named, named, Scope.resolve?_congr same]

private theorem Erasure.bound_congr (same : table.SameNames table') (v : TypeVariable) :
    bound scope table v = bound scope table' v := by
  unfold bound
  cases v.bound with
  | none => rfl
  | some type => exact named_congr same _

/-- The erasure of a type depends on nothing but the known names. -/
theorem Erasure.erase_congr (same : table.SameNames table') (inScope : List TypeVariable)
    (type : Text) : erase scope table inScope type = erase scope table' inScope type := by
  unfold erase
  simp only
  split
  · rw [bound_congr same]
  · rw [named_congr same]

end Resolution

namespace TypeTable

variable {units : List CompilationUnit} {unit : CompilationUnit} {t : TypeDeclaration}

/-- No two types of the units have the same binary name. -/
def Distinct (units : List CompilationUnit) : Prop :=
  ((units.flatMap (·.types)).map (·.binaryName)).Nodup

instance (units : List CompilationUnit) : Decidable (Distinct units) :=
  inferInstanceAs (Decidable (List.Nodup _))

theorem ofUnits_eq (units : List CompilationUnit) :
    ofUnits units = ((declared units).erasedTypes units).foldl
      (fun table e => table.modify e.1 (·.completed e.2)) (declared units) := rfl

/-- The finished table knows the names that were declared. -/
theorem sameNames_declared : (ofUnits units).SameNames (declared units) := by
  intro name
  rw [ofUnits_eq]
  exact contains_modifyAll (fun erased known => known.completed erased) _

private theorem contains_declared (member : unit ∈ units) (ofUnit : t ∈ unit.types) :
    (declared units).contains t.binaryName := by
  rw [contains_iff_mem_names, declared, mem_names_declareAll]
  exact Or.inr ⟨t, List.mem_flatMap.mpr ⟨unit, member, ofUnit⟩, rfl⟩

theorem map_fst_erasedTypes (table : TypeTable) (units : List CompilationUnit) :
    (table.erasedTypes units).map Prod.fst = (units.flatMap (·.types)).map (·.binaryName) := by
  rw [erasedTypes, List.map_flatMap, List.map_flatMap]
  refine List.flatMap_congr fun unit _ => ?_
  rw [List.map_map]
  rfl

/-- The finished table has the supertypes and members of each type as they are erased when all types
are declared. -/
theorem find?_ofUnits (distinct : Distinct units) (member : unit ∈ units)
    (ofUnit : t ∈ unit.types) :
    ∃ known, (declared units).find? t.binaryName = some known ∧
      (ofUnits units).find? t.binaryName = some (known.completed
        (t.erased (.ofUnit unit (JavaType.outermost t.binaryName)) (declared units))) := by
  obtain ⟨known, found⟩ := Option.isSome_iff_exists.mp (contains_declared member ofUnit)
  have distinct' : (((declared units).erasedTypes units).map Prod.fst).Nodup := by
    rw [map_fst_erasedTypes]
    exact distinct
  have change : (t.binaryName,
      t.erased (.ofUnit unit (JavaType.outermost t.binaryName)) (declared units)) ∈
      (declared units).erasedTypes units :=
    List.mem_flatMap.mpr ⟨unit, member, List.mem_map.mpr ⟨t, ofUnit, rfl⟩⟩
  refine ⟨known, found, ?_⟩
  rw [ofUnits_eq]
  exact (find?_modifyAll (fun erased known => known.completed erased) distinct' change).trans
    (congrArg _ found)

private theorem known?_ofUnits (distinct : Distinct units) (member : unit ∈ units)
    (ofUnit : t ∈ unit.types) :
    ∃ known : KnownType, (ofUnits units).known? ⟨t.binaryName, 0⟩ = some (known.completed
      (t.erased (.ofUnit unit (JavaType.outermost t.binaryName)) (declared units))) := by
  obtain ⟨known, -, found⟩ := find?_ofUnits distinct member ofUnit
  exact ⟨known, found⟩

/-- A type of the project has the methods that it declares and those that its kind implies. -/
theorem methods_ofUnits (distinct : Distinct units) (member : unit ∈ units)
    (ofUnit : t ∈ unit.types) :
    (ofUnits units).methods ⟨t.binaryName, 0⟩ = t.methodSignatures
      (.ofUnit unit (JavaType.outermost t.binaryName)) (declared units) := by
  obtain ⟨known, found⟩ := known?_ofUnits distinct member ofUnit
  rw [methods, found]
  rfl

/-- A type of the project has the constructors that it declares and those that its kind implies. -/
theorem constructors_ofUnits (distinct : Distinct units) (member : unit ∈ units)
    (ofUnit : t ∈ unit.types) :
    (ofUnits units).constructors ⟨t.binaryName, 0⟩ = t.constructorSignatures
      (.ofUnit unit (JavaType.outermost t.binaryName)) (declared units) := by
  obtain ⟨known, found⟩ := known?_ofUnits distinct member ofUnit
  rw [constructors, found]
  rfl

private theorem find?_type (distinct : Distinct units) (member : unit ∈ units)
    (ofUnit : t ∈ unit.types) :
    unit.types.find? (·.binaryName == t.binaryName) = some t := by
  have distinct : (unit.types.map (·.binaryName)).Nodup := by
    rw [Distinct, List.map_flatMap] at distinct
    exact (List.nodup_flatMap.mp distinct).1 unit member
  have exists_type : (unit.types.find? (·.binaryName == t.binaryName)).isSome :=
    List.find?_isSome.mpr ⟨t, ofUnit, beq_self_eq_true t.binaryName⟩
  obtain ⟨found, hit⟩ := Option.isSome_iff_exists.mp exists_type
  have name : found.binaryName = t.binaryName := by simpa using List.find?_some hit
  rw [hit, List.inj_on_of_nodup_map distinct (List.mem_of_find?_eq_some hit) ofUnit name]

/-- A check erases the parameters of a declaration as the table of its project does. -/
theorem erasedParameters_eq (distinct : Distinct units) (member : unit ∈ units)
    (ofUnit : t ∈ unit.types) (d : Declaration) (owner : t.binaryName = d.owner)
    (outermost : JavaType.outermost d.owner = d.outermost) :
    d.erasedParameters unit (ofUnits units) = (d.parameters.map (·.type)).map
      (Erasure.erase (.ofUnit unit (JavaType.outermost t.binaryName)) (declared units)
        (d.typeVariables ++ t.typeVariables)) := by
  rw [Declaration.erasedParameters, ← owner, find?_type distinct member ofUnit, List.map_map, owner,
    outermost]
  -- The types are erased against different tables, which know the same names.
  exact List.map_congr_left fun p _ => Erasure.erase_congr sameNames_declared _ _

/-- A method or constructor that its type declares with the same written signature has, as erased
for a check, exactly the parameters under which the finished table stores it. -/
theorem stored_of_declared (units : List CompilationUnit) (distinct : Distinct units)
    (unit : CompilationUnit) (member : unit ∈ units) (t : TypeDeclaration)
    (ofUnit : t ∈ unit.types) (d : Declaration) (owner : t.binaryName = d.owner)
    (outermost : JavaType.outermost d.owner = d.outermost) :
    (.method d.name (d.parameters.map (·.type)) d.typeVariables ∈ t.members →
      ⟨d.name, d.erasedParameters unit (ofUnits units)⟩ ∈ (ofUnits units).methods ⟨d.owner, 0⟩ ∧
      (ofUnits units).hasOverload ⟨d.owner, 0⟩ d.name
        (d.erasedParameters unit (ofUnits units))) ∧
    (.constructor (d.parameters.map (·.type)) d.typeVariables ∈ t.members →
      d.erasedParameters unit (ofUnits units) ∈ (ofUnits units).constructors ⟨d.owner, 0⟩ ∧
      (ofUnits units).hasConstructor ⟨d.owner, 0⟩ (d.erasedParameters unit (ofUnits units))) := by
  have erased := erasedParameters_eq distinct member ofUnit d owner outermost
  constructor
  · intro declared
    have stored : ⟨d.name, d.erasedParameters unit (ofUnits units)⟩ ∈
        (ofUnits units).methods ⟨d.owner, 0⟩ := by
      rw [erased, ← owner, methods_ofUnits distinct member ofUnit]
      exact List.mem_append_left _ (List.mem_filterMap.mpr ⟨_, declared, rfl⟩)
    exact ⟨stored, hasOverload_of_mem stored⟩
  · intro declared
    have stored : d.erasedParameters unit (ofUnits units) ∈
        (ofUnits units).constructors ⟨d.owner, 0⟩ := by
      rw [erased, ← owner, constructors_ofUnits distinct member ofUnit]
      refine List.mem_eraseDups.mpr (List.mem_append_left _ ?_)
      exact List.mem_filterMap.mpr ⟨_, declared, rfl⟩
    exact ⟨stored, List.contains_iff_mem.mpr stored⟩

/-- A generic type with a method and a constructor that have type variables of their own. -/
def cart : TypeDeclaration where
  kind := .classType
  binaryName := "shop.Cart"
  superclass := none
  interfaces := []
  typeVariables := [⟨"T", some "Item"⟩]
  members := [.method "add" ["T[]", "List<E>", "int..."] [⟨"E", none⟩],
    .constructor ["Item", "E"] [⟨"E", some "Item"⟩]]
  components := []

/-- The unit of the generic type. -/
def cartUnit : CompilationUnit := ⟨some "shop", [], [cart], []⟩

/-- The method of the generic type. -/
def addToCart : Declaration where
  kind := .method
  name := "add"
  visibility := .everywhere
  owner := "shop.Cart"
  outermost := "shop.Cart"
  line := 3
  comment := none
  parameters := [⟨"items", "T[]"⟩, ⟨"tags", "List<E>"⟩, ⟨"counts", "int..."⟩]
  typeVariables := [⟨"E", none⟩]
  throws := []
  returnType := some "void"
  hasSupertypes := false
  annotations := []

/-- The constructor of the generic type. -/
def newCart : Declaration :=
  { addToCart with
    kind := .constructor, name := "Cart", parameters := [⟨"item", "Item"⟩, ⟨"extra", "E"⟩]
    typeVariables := [⟨"E", some "Item"⟩], returnType := none }

/-- The method and the constructor are found in the table of their unit. -/
theorem stored_cart :
    (ofUnits [cartUnit]).hasOverload ⟨"shop.Cart", 0⟩ "add"
      (addToCart.erasedParameters cartUnit (ofUnits [cartUnit])) ∧
    (ofUnits [cartUnit]).hasConstructor ⟨"shop.Cart", 0⟩
      (newCart.erasedParameters cartUnit (ofUnits [cartUnit])) := by
  have distinct : Distinct [cartUnit] := by decide
  have member : cartUnit ∈ [cartUnit] := List.mem_cons_self
  have ofUnit : cart ∈ cartUnit.types := List.mem_cons_self
  have method := stored_of_declared [cartUnit] distinct cartUnit member cart ofUnit addToCart rfl
    (by decide)
  have constructor := stored_of_declared [cartUnit] distinct cartUnit member cart ofUnit newCart rfl
    (by decide)
  exact ⟨(method.1 (by decide)).2, (constructor.2 (by decide)).2⟩

end TypeTable

end DocAudit
