import DocAudit.Erasure
import DocAudit.Platform

/-!
The table of a project: the types of the platform and those that its units declare. All types are
declared before any member is erased, so a signature may name a type of any unit.
-/

set_option autoImplicit false

namespace DocAudit

namespace TypeDeclaration

/-- The fields of a type: those it declares, and one for each component of a record. -/
def fieldNames (t : TypeDeclaration) : List Text :=
  (t.members.filterMap fun
    | .field name => some name
    | _ => none) ++
    if t.kind = .recordType then t.components.map (·.name) else []

/-- The methods that a type has without declaring them. -/
def implicitMethods (t : TypeDeclaration) : List MethodSignature :=
  match t.kind with
  | .recordType => t.components.map fun c => ⟨c.name, []⟩
  | .enumType => [⟨"values", []⟩, ⟨"valueOf", [.string]⟩]
  | _ => []

/-- The erased methods of a type. -/
def methodSignatures (scope : Scope) (table : TypeTable) (t : TypeDeclaration) :
    List MethodSignature :=
  (t.members.filterMap fun
    | .method name types own =>
      some ⟨name, types.map (Erasure.erase scope table (own ++ t.typeVariables))⟩
    | _ => none) ++
    t.implicitMethods

/-- The erased parameter lists of the constructors that a type declares. -/
def declaredConstructors (scope : Scope) (table : TypeTable) (t : TypeDeclaration) :
    List (List JavaType) :=
  t.members.filterMap fun
    | .constructor types own =>
      some (types.map (Erasure.erase scope table (own ++ t.typeVariables)))
    | _ => none

/-- The erased parameter lists of a type's constructors, each once. A record has its canonical
constructor, and a class that declares none has one without parameters. -/
def constructorSignatures (scope : Scope) (table : TypeTable) (t : TypeDeclaration) :
    List (List JavaType) :=
  let declared := t.declaredConstructors scope table
  let implicit :=
    match t.kind with
    | .recordType => [t.components.map fun c => Erasure.erase scope table t.typeVariables c.type]
    | .classType => if declared.isEmpty then [[]] else []
    | _ => []
  (declared ++ implicit).eraseDups

/-- What a type's own declaration says of it. -/
def erased (scope : Scope) (table : TypeTable) (t : TypeDeclaration) : KnownType where
  kind := t.kind
  superclass := t.superclass.map (Erasure.erase scope table t.typeVariables)
  interfaces := t.interfaces.map (Erasure.erase scope table t.typeVariables)
  fields := t.fieldNames
  methods := t.methodSignatures scope table
  constructors := t.constructorSignatures scope table

end TypeDeclaration

namespace KnownType

/-- A type with the supertypes and members of a declaration. A superclass that the declaration does
not name stays as it was. -/
def completed (known erased : KnownType) : KnownType :=
  { erased with kind := known.kind, superclass := erased.superclass.or known.superclass }

end KnownType

namespace TypeTable

/-- The table with all types of the units declared and none completed. -/
def declared (units : List CompilationUnit) : TypeTable :=
  (units.flatMap (·.types)).foldl (fun table t => table.declare t.binaryName t.kind) platform

/-- The supertypes and members of every type of the units, in order. -/
def erasedTypes (table : TypeTable) (units : List CompilationUnit) : List (Text × KnownType) :=
  units.flatMap fun unit => unit.types.map fun t =>
    (t.binaryName, t.erased (.ofUnit unit (JavaType.outermost t.binaryName)) table)

/-- The table of a project. -/
def ofUnits (units : List CompilationUnit) : TypeTable :=
  let table := declared units
  (table.erasedTypes units).foldl
    (fun table (name, erased) => table.modify name (·.completed erased)) table

end TypeTable

/-- The erased parameter types of a method or constructor of a unit. -/
def Declaration.erasedParameters (d : Declaration) (unit : CompilationUnit) (table : TypeTable) :
    List JavaType :=
  let ofOwner :=
    match unit.types.find? (·.binaryName == d.owner) with
    | some t => t.typeVariables
    | none => []
  d.parameters.map fun p =>
    Erasure.erase (.ofUnit unit d.outermost) table (d.typeVariables ++ ofOwner) p.type

end DocAudit
