import DocAudit.Text

/-!
Java declarations as their sources write them: what a documentation comment is checked against,
and what a compilation unit adds to the types of a project.
-/

set_option autoImplicit false

namespace DocAudit

/-- The kinds of declaration. -/
inductive DeclarationKind where
  | classType
  | interfaceType
  | enumType
  | recordType
  | annotationType
  | method
  | constructor
  | field
deriving DecidableEq

namespace DeclarationKind

/-- Methods and constructors have parameters and may throw. -/
def isCallable : DeclarationKind → Bool
  | method | constructor => true
  | _ => false

/-- The kinds of type whose comments are checked: all but annotation types. -/
def isCheckedType : DeclarationKind → Bool
  | classType | interfaceType | enumType | recordType => true
  | _ => false

end DeclarationKind

/-- Who may see a declaration. -/
inductive Visibility where
  | everywhere
  | subclasses
  | package
  | declaringType
deriving DecidableEq

namespace Visibility

/-- Whether code outside the package can see the declaration. -/
def isExposed : Visibility → Bool
  | everywhere | subclasses => true
  | _ => false

end Visibility

/-- A comment with the line it starts on. -/
structure DocComment where
  text : Text
  line : Nat
deriving DecidableEq

/-- A formal parameter, or a component of a record. -/
structure Parameter where
  name : Text
  type : Text
deriving DecidableEq

/-- A type variable with the first type of its bound. -/
structure TypeVariable where
  name : Text
  bound : Option Text
deriving DecidableEq

/-- A declaration, as far as its documentation depends on it. -/
structure Declaration where
  kind : DeclarationKind
  name : Text
  visibility : Visibility
  /-- The binary name of the innermost type around it; for a type, that of the type itself. -/
  owner : Text
  /-- The name of the outermost type around the declaration. -/
  outermost : Text
  line : Nat
  comment : Option DocComment
  parameters : List Parameter
  typeVariables : List TypeVariable
  throws : List Text
  /-- The result type of a method. -/
  returnType : Option Text
  /-- Whether a type names a superclass or an interface. -/
  hasSupertypes : Bool
  annotations : List Text
deriving DecidableEq

namespace Declaration

/-- Whether this is a method without a result. -/
def isVoidMethod (d : Declaration) : Bool :=
  d.kind == .method && d.returnType == some "void"

/-- Whether an annotation has this simple or full name. -/
def hasAnnotation (d : Declaration) (name : Text) : Bool :=
  d.annotations.any fun a => a == name || a.afterLast (· == '.') == name

end Declaration

/-- A member that a type declares. Its types are as written. -/
inductive Member where
  | field (name : Text)
  | method (name : Text) (parameters : List Text) (typeVariables : List TypeVariable)
  | constructor (parameters : List Text) (typeVariables : List TypeVariable)
deriving DecidableEq

/-- A type with its supertypes and members as written. -/
structure TypeDeclaration where
  kind : DeclarationKind
  binaryName : Text
  superclass : Option Text
  interfaces : List Text
  typeVariables : List TypeVariable
  members : List Member
  /-- The components of a record. -/
  components : List Parameter
deriving DecidableEq

/-- An import. The name of a wildcard import lacks the star. -/
structure Import where
  name : Text
  isWildcard : Bool
  isStatic : Bool
deriving DecidableEq

namespace Import

/-- The package or type that holds what is imported. -/
def container (i : Import) : Text :=
  if i.isWildcard then i.name
  else
    match i.name.cutLast? (· == '.') with
    | some (container, _) => container
    | none => i.name

end Import

/-- What one source file declares. -/
structure CompilationUnit where
  package : Option Text
  imports : List Import
  types : List TypeDeclaration
  declarations : List Declaration
deriving DecidableEq

end DocAudit
