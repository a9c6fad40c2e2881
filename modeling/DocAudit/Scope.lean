import DocAudit.TypeTable

/-!
How a type name in source is resolved: the names that it may stand for, in order of preference, and
the first of them that is known.
-/

set_option autoImplicit false

namespace DocAudit

/-- What surrounds a type name: its package (empty for the default package), the outermost type
around it, and the imported names in source order. -/
structure Scope where
  package : Text
  enclosing : Text
  imports : List Text
deriving DecidableEq

namespace Scope

/-- The scope inside a type of a unit. Every import gives its own name and the name of what holds
it, without empty names and later repetitions. -/
def ofUnit (unit : CompilationUnit) (outermost : Text) : Scope where
  package := unit.package.getD []
  enclosing := outermost
  imports := ((unit.imports.flatMap fun i => [i.name, i.container]).filter (!·.isEmpty)).eraseDups

/-- The names of a type inside `holder`: as written, with its own nesting set off by dollar signs,
and nested in `holder` itself. -/
def within (holder name : Text) : List Text :=
  if holder.isEmpty then []
  else
    let nested := name.replaceChar '.' '$'
    [holder ++ "." ++ name, holder ++ "." ++ nested, holder ++ "$" ++ nested]

/-- The name with its last dot as a nesting. -/
def nestedInLast (name : Text) : List Text :=
  match name.cutLast? (· == '.') with
  | some (outer, inner) => [outer ++ "$" ++ inner]
  | none => []

/-- The names that `name` may stand for besides itself, in order of preference: a nested type, a
type of the package, of the enclosing type, an imported type, a type in something imported, and a
type of the language itself. -/
def qualified (scope : Scope) (name : Text) : List Text :=
  nestedInLast name ++ within scope.package name ++ within scope.enclosing name ++
    scope.imports.filter (·.endsWith ('.' :: name)) ++
    scope.imports.flatMap (within · name) ++
    ["java.lang." ++ name]

/-- Whether a name with this many dimensions is a primitive type. There are no arrays of `void`. -/
def isPrimitive (name : Text) (dimensions : Nat) : Bool :=
  JavaType.primitives.contains name && (name != ("void" : Text) || dimensions == 0)

/-- The element type that a name without array suffix stands for. -/
def element? (scope : Scope) (table : TypeTable) (name : Text) (dimensions : Nat) : Option Text :=
  if name.isEmpty then none
  else if table.contains name || isPrimitive name dimensions then some name
  else (scope.qualified name).find? table.contains

/-- The type that a name stands for. -/
def resolve? (scope : Scope) (table : TypeTable) (name : Text) : Option JavaType :=
  let (base, dimensions) := JavaType.splitSuffix name.trim
  (scope.element? table base dimensions).map (⟨·, dimensions⟩)

end Scope

end DocAudit
