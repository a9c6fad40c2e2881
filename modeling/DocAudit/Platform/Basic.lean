import DocAudit.Signature

/-!
Types that every project knows without declaring them, written down by their erased signatures.
-/

set_option autoImplicit false

namespace DocAudit.Platform

/-- A type of the Java platform. Methods are written as `name(types)` and constructors as `(types)`,
where a type variable stands as `java.lang.Object` and a variable number of arguments as an array. -/
structure PlatformType where
  name : String
  kind : DeclarationKind
  /-- The superclass, where it is not the one that the kind implies. -/
  superclass : Option String := none
  interfaces : List String := []
  fields : List String := []
  methods : List String := []
  constructors : List String := []

/-- A class with a constructor without parameters. -/
def platformClass (name : String) : PlatformType :=
  { name, kind := .classType, constructors := ["()"] }

/-- An interface. -/
def platformInterface (name : String) : PlatformType :=
  { name, kind := .interfaceType }

/-- An enumeration. -/
def platformEnum (name : String) : PlatformType :=
  { name, kind := .enumType }

/-- An annotation type. -/
def platformAnnotation (name : String) : PlatformType :=
  { name, kind := .annotationType }

/-- The constructors that most throwables have. -/
def throwableConstructors : List String :=
  ["()", "(java.lang.String)", "(java.lang.String, java.lang.Throwable)", "(java.lang.Throwable)"]

/-- A throwable class with the usual constructors. -/
def platformException (name superclass : String) : PlatformType :=
  { name, kind := .classType, superclass := some superclass, constructors := throwableConstructors }

namespace PlatformType

/-- The erased types of a parameter list. -/
def parameterTypes (list : Text) : List JavaType :=
  (Signature.typeNames list).map JavaType.ofBinaryName

/-- A method from its name and parameter list. -/
def method (signature : Text) : MethodSignature :=
  match signature.cutFirst? (· == '(') with
  | some (name, list) => ⟨name, parameterTypes list⟩
  | none => ⟨signature, []⟩

/-- What the table of known types holds of a platform type. -/
def known (t : PlatformType) : KnownType where
  kind := t.kind
  superclass :=
    match t.superclass with
    | some name => some ⟨name, 0⟩
    | none => KnownType.implicitSuperclass t.name t.kind
  interfaces := t.interfaces.map fun (name : String) => ⟨name, 0⟩
  fields := t.fields.map String.toList
  methods := t.methods.map fun (signature : String) => method signature
  constructors := t.constructors.map fun (list : String) => parameterTypes list

end PlatformType

end DocAudit.Platform
