import DocAudit.Proofs.Scope.CanonicalName
import DocAudit.Proofs.TypeTable.Order

/-!
A type that is declared more than once. What the table knows of it comes from its last declaration,
except that the superclass of an earlier declaration stays where no later one names another.
-/

set_option autoImplicit false

namespace DocAudit

namespace TypeTable

/-- The types of a unit without those of this name that are declared again, later in the unit or
after it. -/
def dropRedeclared (name : Text) (again : Bool) : List TypeDeclaration → List TypeDeclaration
  | [] => []
  | t :: types =>
    if t.binaryName = name ∧ (again ∨ types.any (·.binaryName == name)) then
      dropRedeclared name again types
    else t :: dropRedeclared name again types

/-- The units with all but the last declaration of this name removed. -/
def withLastOnly (name : Text) : List CompilationUnit → List CompilationUnit
  | [] => []
  | unit :: units =>
    let again := (units.flatMap (·.types)).any (·.binaryName == name)
    { unit with types := dropRedeclared name again unit.types } :: withLastOnly name units

/-- The declarations of one type, in order, each with the scope in which it stands. -/
def declarationsOf (name : Text) (units : List CompilationUnit) : List (Scope × TypeDeclaration) :=
  units.flatMap fun unit => (unit.types.filter (·.binaryName == name)).map fun t =>
    (.ofUnit unit (JavaType.outermost name), t)

/-- The superclass that the declarations of a type name; of several, the last. -/
def writtenSuperclass? (name : Text) (units : List CompilationUnit) : Option JavaType :=
  (declarationsOf name units).reverse.findSome? fun (scope, t) =>
    t.superclass.map (Erasure.erase scope (declared units) t.typeVariables)

/-- The last declaration of a type names a superclass, or none of them does. -/
def LastDecidesSuperclass (name : Text) (units : List CompilationUnit) : Prop :=
  (∀ last ∈ (declarationsOf name units).getLast?, last.2.superclass.isSome) ∨
    ∀ d ∈ declarationsOf name units, d.2.superclass = none

instance (name : Text) (units : List CompilationUnit) :
    Decidable (LastDecidesSuperclass name units) :=
  inferInstanceAs (Decidable (_ ∨ _))

section Declarations

variable {name key : Text} {units : List CompilationUnit} {types : List TypeDeclaration}
  {table : TypeTable} {again : Bool}

private theorem any_name_iff :
    types.any (·.binaryName == name) ↔ types.filter (·.binaryName == name) ≠ [] := by
  rw [Ne, List.filter_eq_nil_iff]
  simp

private theorem mem_names_iff :
    name ∈ types.map (·.binaryName) ↔ types.any (·.binaryName == name) := by
  simp

/-- Only the last of the types with this name is left, and none if a later unit has one. -/
private theorem filter_dropRedeclared (again : Bool) (types : List TypeDeclaration) :
    (dropRedeclared name again types).filter (·.binaryName == name) =
      if again then [] else (types.filter (·.binaryName == name)).getLast?.toList := by
  induction types with
  | nil => simp [dropRedeclared]
  | cons t types ih =>
    rw [dropRedeclared]
    by_cases named : t.binaryName = name
    · have own : ∀ rest : List TypeDeclaration, (t :: rest).filter (·.binaryName == name) =
          t :: rest.filter (·.binaryName == name) :=
        fun rest => List.filter_cons_of_pos (beq_iff_eq.mpr named)
      split_ifs with redeclared isAgain isAgain
      · rw [ih, if_pos isAgain]
      · have later : types.filter (·.binaryName == name) ≠ [] :=
          any_name_iff.mp (redeclared.2.resolve_left isAgain)
        rw [ih, if_neg isAgain, own, List.getLast?_cons_of_ne_nil later]
      · exact absurd ⟨named, Or.inl isAgain⟩ redeclared
      · have last : types.filter (·.binaryName == name) = [] := by
          by_contra later
          exact redeclared ⟨named, Or.inr (any_name_iff.mpr later)⟩
        rw [own, ih, if_neg isAgain, own, last]
        rfl
    · have kept : ¬ (t.binaryName = name ∧ (again ∨ types.any (·.binaryName == name))) :=
        fun both => named both.1
      have other : ∀ rest : List TypeDeclaration, (t :: rest).filter (·.binaryName == name) =
          rest.filter (·.binaryName == name) :=
        fun rest => List.filter_cons_of_neg (by simpa using named)
      rw [if_neg kept, other, other, ih]

private theorem mem_names_dropRedeclared_iff (other : key ≠ name) :
    key ∈ (dropRedeclared name again types).map (·.binaryName) ↔
      key ∈ types.map (·.binaryName) := by
  induction types with
  | nil => rfl
  | cons t types ih =>
    rw [dropRedeclared]
    split_ifs with redeclared
    -- What is dropped has the other name.
    · have different : key ≠ t.binaryName := by
        rw [redeclared.1]
        exact other
      rw [ih, List.map_cons, List.mem_cons]
      exact (or_iff_right different).symm
    · rw [List.map_cons, List.map_cons, List.mem_cons, List.mem_cons, ih]

private theorem map_snd_declarationsOf (name : Text) (units : List CompilationUnit) :
    (declarationsOf name units).map Prod.snd =
      (units.flatMap (·.types)).filter (·.binaryName == name) := by
  rw [declarationsOf, List.map_flatMap, List.filter_flatMap]
  refine List.flatMap_congr fun unit _ => ?_
  rw [List.map_map]
  exact List.map_id _

private theorem any_flatMap_iff :
    (units.flatMap (·.types)).any (·.binaryName == name) ↔ declarationsOf name units ≠ [] := by
  rw [any_name_iff, ← map_snd_declarationsOf, Ne, List.map_eq_nil_iff]

/-- Of the declarations of the type the last one is left, in its own scope. -/
private theorem declarationsOf_withLastOnly (name : Text) (units : List CompilationUnit) :
    declarationsOf name (withLastOnly name units) =
      (declarationsOf name units).getLast?.toList := by
  induction units with
  | nil => rfl
  | cons unit units ih =>
    have split : declarationsOf name (unit :: units) =
        ((unit.types.filter (·.binaryName == name)).map fun t =>
          (Scope.ofUnit unit (JavaType.outermost name), t)) ++ declarationsOf name units :=
      List.flatMap_cons
    have split' : declarationsOf name (withLastOnly name (unit :: units)) =
        (((dropRedeclared name ((units.flatMap (·.types)).any (·.binaryName == name))
          unit.types).filter (·.binaryName == name)).map fun t =>
          (Scope.ofUnit unit (JavaType.outermost name), t)) ++
          declarationsOf name (withLastOnly name units) :=
      List.flatMap_cons
    rw [split, split', ih, filter_dropRedeclared, List.getLast?_append]
    by_cases later : declarationsOf name units = []
    · have last : ¬ (units.flatMap (·.types)).any (·.binaryName == name) := by
        rw [any_flatMap_iff]
        exact fun more => more later
      rw [later, if_neg last, List.getLast?_map]
      cases (unit.types.filter (·.binaryName == name)).getLast? <;> rfl
    · have again : (units.flatMap (·.types)).any (·.binaryName == name) :=
        any_flatMap_iff.mpr later
      obtain ⟨last, found⟩ := Option.isSome_iff_exists.mp (List.getLast?_isSome.mpr later)
      rw [if_pos again, found]
      rfl

private theorem mem_names_withLastOnly_iff (name key : Text) (units : List CompilationUnit) :
    key ∈ ((withLastOnly name units).flatMap (·.types)).map (·.binaryName) ↔
      key ∈ (units.flatMap (·.types)).map (·.binaryName) := by
  by_cases own : key = name
  · subst own
    rw [mem_names_iff, mem_names_iff, any_flatMap_iff, any_flatMap_iff, declarationsOf_withLastOnly]
    cases found : (declarationsOf key units).getLast? with
    | none => simpa using found
    | some last =>
      have ne_nil : declarationsOf key units ≠ [] := by
        rintro nothing
        simp [nothing] at found
      simpa using ne_nil
  · induction units with
    | nil => rfl
    | cons unit units ih =>
      rw [withLastOnly, List.flatMap_cons, List.flatMap_cons, List.map_append, List.map_append,
        List.mem_append, List.mem_append, ih, mem_names_dropRedeclared_iff own]

private theorem sameNames_withLastOnly (name : Text) (units : List CompilationUnit) :
    (declared (withLastOnly name units)).SameNames (declared units) := by
  intro key
  rw [Bool.eq_iff_iff, contains_iff_mem_names, contains_iff_mem_names, declared, declared,
    mem_names_declareAll, mem_names_declareAll, ← List.mem_map, ← List.mem_map,
    mem_names_withLastOnly_iff]

/-- After a list of types is declared each one is as its last declaration leaves it. -/
private theorem find?_declareAll_eq (name : Text) (types : List TypeDeclaration)
    (table : TypeTable) :
    (types.foldl (fun table t => table.declare t.binaryName t.kind) table).find? name =
      ((types.filter (·.binaryName == name)).getLast?.map (KnownType.fresh name ·.kind)).or
        (table.find? name) := by
  induction types generalizing table with
  | nil => rfl
  | cons t types ih =>
    rw [List.foldl_cons, ih]
    by_cases named : t.binaryName = name
    · have own : (t :: types).filter (·.binaryName == name) =
          t :: types.filter (·.binaryName == name) :=
        List.filter_cons_of_pos (beq_iff_eq.mpr named)
      rw [own, declare, named, find?_insert_self]
      cases later : types.filter (·.binaryName == name) with
      | nil => rfl
      | cons first rest => simp [List.getLast?_cons]
    · have other : (t :: types).filter (·.binaryName == name) =
          types.filter (·.binaryName == name) :=
        List.filter_cons_of_neg (by simpa using named)
      rw [other, declare, find?_insert_of_ne (Ne.symm named)]

private theorem filter_erasedTypes (table : TypeTable) (name : Text)
    (units : List CompilationUnit) :
    (table.erasedTypes units).filter (·.1 == name) =
      (declarationsOf name units).map fun d => (name, d.2.erased d.1 table) := by
  rw [erasedTypes, declarationsOf, List.filter_flatMap, List.map_flatMap]
  refine List.flatMap_congr fun unit _ => ?_
  rw [List.filter_map, List.map_map]
  refine List.map_congr_left fun t member => ?_
  have named : t.binaryName = name := by simpa using (List.mem_filter.mp member).2
  simp [named]

end Declarations

section Completion

variable {known : KnownType}

private theorem kind_foldl_completed (steps : List KnownType) (known : KnownType) :
    (steps.foldl KnownType.completed known).kind = known.kind := by
  induction steps generalizing known with
  | nil => rfl
  | cons step steps ih => rw [List.foldl_cons, ih, KnownType.completed]

private theorem superclass_foldl_completed (steps : List KnownType) (known : KnownType) :
    (steps.foldl KnownType.completed known).superclass =
      (steps.reverse.findSome? (·.superclass)).or known.superclass := by
  induction steps generalizing known with
  | nil => rfl
  | cons step steps ih =>
    rw [List.foldl_cons, ih, List.reverse_cons, List.findSome?_append, Option.or_assoc]
    cases own : step.superclass <;> simp [KnownType.completed, own]

/-- The last of several completions decides all but the kind and the superclass. -/
private theorem foldl_completed_append (steps : List KnownType) (last known : KnownType) :
    (steps ++ [last]).foldl KnownType.completed known =
      { last with
        kind := known.kind
        superclass :=
          ((steps ++ [last]).reverse.findSome? (·.superclass)).or known.superclass } := by
  have kind := kind_foldl_completed (steps ++ [last]) known
  have superclass := superclass_foldl_completed (steps ++ [last]) known
  rw [← superclass, ← kind, List.foldl_append]
  rfl

end Completion

section Units

variable {name : Text} {units : List CompilationUnit}

private theorem find?_ofUnits_of_undeclared (undeclared : declarationsOf name units = []) :
    (ofUnits units).find? name = platform.find? name := by
  have absent : (units.flatMap (·.types)).filter (·.binaryName == name) = [] := by
    rw [← map_snd_declarationsOf, undeclared, List.map_nil]
  have notDeclared : (declared units).find? name = platform.find? name := by
    rw [declared, find?_declareAll_eq, absent, List.getLast?_nil, Option.map_none, Option.none_or]
  rw [ofUnits_eq, find?_modifyAll_eq (fun erased known => known.completed erased), notDeclared,
    filter_erasedTypes, undeclared, List.map_nil]
  exact Option.map_id_apply

/-- What a table knows of a declared type is its last declaration, completed by all of them. -/
theorem find?_ofUnits_of_getLast? {last : Scope × TypeDeclaration}
    (isLast : (declarationsOf name units).getLast? = some last) :
    (ofUnits units).find? name = some { last.2.erased last.1 (declared units) with
      superclass := (writtenSuperclass? name units).or
        (KnownType.implicitSuperclass name last.2.kind) } := by
  obtain ⟨earlier, split⟩ := List.getLast?_eq_some_iff.mp isLast
  have declaredAs : (declared units).find? name = some (.fresh name last.2.kind) := by
    rw [declared, find?_declareAll_eq, ← map_snd_declarationsOf, List.getLast?_map, isLast]
    rfl
  have completed : (ofUnits units).find? name =
      some (((declarationsOf name units).map fun d => d.2.erased d.1 (declared units)).foldl
        KnownType.completed (.fresh name last.2.kind)) := by
    rw [ofUnits_eq, find?_modifyAll_eq (fun erased known => known.completed erased), declaredAs,
      filter_erasedTypes, Option.map_some, List.foldl_map, List.foldl_map]
  have written : writtenSuperclass? name units =
      ((declarationsOf name units).map fun d => d.2.erased d.1 (declared units)).reverse.findSome?
        (·.superclass) := by
    rw [← List.map_reverse, List.findSome?_map]
    rfl
  rw [completed, written, split, List.map_append, List.map_singleton, foldl_completed_append]
  rfl

private theorem find?_withLastOnly_of_getLast? {last : Scope × TypeDeclaration}
    (isLast : (declarationsOf name units).getLast? = some last) :
    (ofUnits (withLastOnly name units)).find? name =
      some { last.2.erased last.1 (declared units) with
        superclass := (last.2.erased last.1 (declared units)).superclass.or
          (KnownType.implicitSuperclass name last.2.kind) } := by
  have single : declarationsOf name (withLastOnly name units) = [last] := by
    rw [declarationsOf_withLastOnly, isLast]
    rfl
  have same := TypeDeclaration.erased_congr (sameNames_withLastOnly name units) last.1 last.2
  have written : writtenSuperclass? name (withLastOnly name units) =
      (last.2.erased last.1 (declared units)).superclass := by
    rw [writtenSuperclass?, single, ← same]
    exact List.findSome?_singleton
  have isLast' : (declarationsOf name (withLastOnly name units)).getLast? = some last := by
    rw [single]
    rfl
  rw [find?_ofUnits_of_getLast? isLast', same, written]

private theorem writtenSuperclass?_of_getLast? {last : Scope × TypeDeclaration}
    (isLast : (declarationsOf name units).getLast? = some last) :
    ∃ earlier, writtenSuperclass? name units =
      (last.2.erased last.1 (declared units)).superclass.or earlier := by
  obtain ⟨front, split⟩ := List.getLast?_eq_some_iff.mp isLast
  rw [writtenSuperclass?, split, List.reverse_append, List.findSome?_append]
  exact ⟨_, congrArg (Option.or · _) List.findSome?_singleton⟩

/-- The last declaration of a type decides all that a table knows of it, as if it were the only one,
apart from the superclass: that is the one which the last declaration to name any names. -/
theorem find?_ofUnits_withLastOnly (units : List CompilationUnit) (name : Text) :
    (ofUnits units).find? name =
      ((ofUnits (withLastOnly name units)).find? name).map (fun known =>
        { known with superclass := (writtenSuperclass? name units).or known.superclass }) ∧
    (LastDecidesSuperclass name units →
      (ofUnits units).find? name = (ofUnits (withLastOnly name units)).find? name) := by
  cases isLast : (declarationsOf name units).getLast? with
  | none =>
    have undeclared : declarationsOf name units = [] := List.getLast?_eq_none_iff.mp isLast
    have undeclared' : declarationsOf name (withLastOnly name units) = [] := by
      rw [declarationsOf_withLastOnly, isLast]
      rfl
    have unwritten : writtenSuperclass? name units = none := by
      rw [writtenSuperclass?, undeclared]
      rfl
    rw [find?_ofUnits_of_undeclared undeclared, find?_ofUnits_of_undeclared undeclared', unwritten]
    exact ⟨Option.map_id_apply.symm, fun _ => rfl⟩
  | some last =>
    obtain ⟨earlier, written⟩ := writtenSuperclass?_of_getLast? isLast
    rw [find?_ofUnits_of_getLast? isLast, find?_withLastOnly_of_getLast? isLast]
    constructor
    · have decided : (writtenSuperclass? name units).or
          ((last.2.erased last.1 (declared units)).superclass.or
            (KnownType.implicitSuperclass name last.2.kind)) =
          (writtenSuperclass? name units).or (KnownType.implicitSuperclass name last.2.kind) := by
        rw [written]
        cases (last.2.erased last.1 (declared units)).superclass <;> rfl
      rw [Option.map_some, decided]
    · intro decides
      have decided : writtenSuperclass? name units =
          (last.2.erased last.1 (declared units)).superclass := by
        rcases decides with named | unnamed
        · obtain ⟨superclass, named⟩ := Option.isSome_iff_exists.mp (named last isLast)
          rw [written, TypeDeclaration.erased, named]
          rfl
        · have unnamedLast : last.2.superclass = none :=
            unnamed last (List.mem_of_getLast? isLast)
          rw [TypeDeclaration.erased, unnamedLast, writtenSuperclass?]
          refine List.findSome?_eq_none_iff.mpr fun d member => ?_
          exact Option.map_eq_none_iff.mpr (unnamed d (List.mem_reverse.mp member))
      rw [decided]

/-- A class that two source trees declare, the first of them with a superclass. -/
def variants (second : Option Text) : List CompilationUnit :=
  let rack : TypeDeclaration := {
    kind := .classType, binaryName := "shop.Rack", superclass := none, interfaces := []
    typeVariables := [], members := [], components := [] }
  let shelf : TypeDeclaration := {
    rack with
    binaryName := "shop.Shelf", superclass := some "shop.Rack"
    interfaces := ["Comparable<Shelf>"], members := [.field "width"] }
  [⟨some "shop", [], [rack, shelf], []⟩,
    ⟨some "shop", [], [{ shelf with superclass := second, interfaces := [], members := [] }], []⟩]

/-- A second superclass replaces the first. -/
theorem find?_ofUnits_other_superclass :
    LastDecidesSuperclass "shop.Shelf" (variants (some "shop.Box")) ∧
      (ofUnits (variants (some "shop.Box"))).find? "shop.Shelf" =
        (ofUnits (withLastOnly "shop.Shelf" (variants (some "shop.Box")))).find? "shop.Shelf" := by
  have decides : LastDecidesSuperclass "shop.Shelf" (variants (some "shop.Box")) := by
    decide
  exact ⟨decides, (find?_ofUnits_withLastOnly (variants (some "shop.Box")) "shop.Shelf").2 decides⟩

private theorem contains_declared_of_declares (declares : Declares units name) :
    (declared units).contains name := by
  rw [← sameNames_declared, contains_ofUnits_iff]
  exact Or.inr declares

private theorem erase_rack (scope : Scope) (second : Option Text) :
    Erasure.erase scope (declared (variants second)) [] "shop.Rack" = ⟨"shop.Rack", 0⟩ := by
  have declares : Declares (variants second) "shop.Rack" :=
    ⟨_, List.mem_cons_self, _, List.mem_cons_self, rfl⟩
  have resolved := Scope.resolve?_of_contains (contains_declared_of_declares declares)
    (by decide) scope
  have written : Erasure.dotsToBrackets (Erasure.dropArguments 0 "shop.Rack") = "shop.Rack" := by
    decide
  have element : ("shop.Rack" : Text).takeWhile (· != '[') = "shop.Rack" := by
    decide
  rw [Erasure.erase, written, element, List.find?_nil, Erasure.named, resolved]
  rfl

/-- The superclass of the first declaration stays when the second names none. -/
theorem find?_ofUnits_no_superclass :
    (declarationsOf "shop.Shelf" (variants none)).length = 2 ∧
      (ofUnits (variants none)).find? "shop.Shelf" ≠
        (ofUnits (withLastOnly "shop.Shelf" (variants none))).find? "shop.Shelf" := by
  refine ⟨rfl, fun same => ?_⟩
  have isLast : ∃ last, (declarationsOf "shop.Shelf" (variants none)).getLast? = some last ∧
      last.2.superclass = none ∧ last.2.kind = .classType := ⟨_, rfl, rfl, rfl⟩
  obtain ⟨last, isLast, unnamed, kind⟩ := isLast
  rw [find?_ofUnits_of_getLast? isLast, find?_withLastOnly_of_getLast? isLast] at same
  have written : writtenSuperclass? "shop.Shelf" (variants none) = some ⟨"shop.Rack", 0⟩ :=
    congrArg some (erase_rack _ none)
  have unwritten : (last.2.erased last.1 (declared (variants none))).superclass = none :=
    congrArg (Option.map _) unnamed
  have superclass : (writtenSuperclass? "shop.Shelf" (variants none)).or
        (KnownType.implicitSuperclass "shop.Shelf" last.2.kind) =
      (last.2.erased last.1 (declared (variants none))).superclass.or
        (KnownType.implicitSuperclass "shop.Shelf" last.2.kind) :=
    congrArg KnownType.superclass (Option.some.inj same)
  rw [written, unwritten, kind] at superclass
  exact absurd superclass (by decide)

end Units

end TypeTable

end DocAudit
