import DocAudit.Check
import DocAudit.Path
import DocAudit.TypeTable.OfUnits

/-!
The violations of a whole unit, each with the file, line and declaration it belongs to.
-/

set_option autoImplicit false

namespace DocAudit

/-- A violation in a file. -/
structure Diagnostic where
  path : Text
  line : Nat
  kind : ViolationKind
  message : Text
  /-- The dotted name of the declaration. -/
  declaration : Text
deriving DecidableEq

namespace Diagnostic

/-- Whether a violation may stand before another in a report: by path, then by line. -/
def precedes (a b : Diagnostic) : Bool :=
  Path.key a.path < Path.key b.path || (Path.key a.path = Path.key b.path && a.line ≤ b.line)

/-- The violations by path and line; those of one line keep their order. -/
def sorted (diagnostics : List Diagnostic) : List Diagnostic :=
  diagnostics.mergeSort precedes

end Diagnostic

namespace Declaration

/-- The dotted name of a declaration. -/
def qualifiedName (d : Declaration) : Text :=
  let owner := d.owner.replaceChar '$' '.'
  match d.kind with
  | .method | .constructor | .field => if owner.isEmpty then d.name else owner ++ "." ++ d.name
  | _ => owner

/-- Whether a supertype in the table declares this method with the same erased parameter types. -/
def overridesSupertype (d : Declaration) (unit : CompilationUnit) (table : TypeTable) : Bool :=
  d.kind == .method && table.overrides ⟨d.owner, 0⟩ d.name (d.erasedParameters unit table)

/-- Whether an annotation says that this declaration overrides another. -/
def saysOverride (d : Declaration) : Bool :=
  d.hasAnnotation "Override"

/-- A violation of this declaration on a line. -/
def diagnose (d : Declaration) (path : Text) (line : Nat) (v : Violation) : Diagnostic :=
  ⟨path, line, v.kind, v.message, d.qualifiedName⟩

/-- The missing annotation of a method that overrides, where one is required. -/
def missingOverride (d : Declaration) (unit : CompilationUnit) (path : Text) (table : TypeTable)
    (settings : Settings) : List Diagnostic :=
  if settings.requireOverride && d.overridesSupertype unit table && !d.saysOverride then
    [d.diagnose path d.line (.missingOverride d.name)]
  else []

/-- What the comment of this declaration is checked against. -/
def subject (d : Declaration) (unit : CompilationUnit) (table : TypeTable) (settings : Settings) :
    Check.Subject where
  declaration := d
  scope := .ofUnit unit d.outermost
  table := table
  settings := settings
  isOverride := d.kind == .method && (d.overridesSupertype unit table || d.saysOverride)

/-- The violations of this declaration's comment. -/
def commentDiagnostics (d : Declaration) (unit : CompilationUnit) (path : Text)
    (table : TypeTable) (settings : Settings) : List Diagnostic :=
  match d.comment with
  | none => []
  | some comment =>
    (d.subject unit table settings).findings.map fun f =>
      d.diagnose path (comment.line + f.line) f.violation

/-- The violations of this declaration. -/
def diagnostics (d : Declaration) (unit : CompilationUnit) (path : Text) (table : TypeTable)
    (settings : Settings) : List Diagnostic :=
  d.missingOverride unit path table settings ++ d.commentDiagnostics unit path table settings

end Declaration

/-- The violations of a unit, declaration by declaration. -/
def CompilationUnit.diagnostics (unit : CompilationUnit) (path : Text) (table : TypeTable)
    (settings : Settings) : List Diagnostic :=
  unit.declarations.flatMap (·.diagnostics unit path table settings)

end DocAudit
