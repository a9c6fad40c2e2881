import DocAudit.Text

/-!
Erased Java types: the binary name of an element type with a number of array dimensions.
-/

set_option autoImplicit false

namespace DocAudit

/-- An erased type. The element is a binary name, in which a dollar sign sets off nested types. -/
structure JavaType where
  element : Text
  dimensions : Nat := 0
deriving DecidableEq

namespace JavaType

/-- The names of the primitive types, and `void`. -/
def primitives : List Text :=
  ["byte", "short", "int", "long", "float", "double", "boolean", "char", "void"]

/-- The common superclass of all classes. -/
def object : JavaType := ⟨"java.lang.Object", 0⟩

/-- The class of texts. -/
def string : JavaType := ⟨"java.lang.String", 0⟩

/-- The name without its array suffix, and the number of dimensions that the suffix stands for: one
for each closing bracket, and one for the three dots of a variable number of arguments. -/
def splitSuffix (name : Text) : Text × Nat :=
  let (base, extra) :=
    match name.dropEnding? "..." with
    | some base => (base, 1)
    | none => (name, 0)
  let brackets := base.dropWhile (· != '[')
  if brackets.contains ']' then
    (Text.trimRight (base.takeWhile (· != '[')), brackets.count ']' + extra)
  else (base, extra)

/-- The type that a binary name with an array suffix stands for. -/
def ofBinaryName (text : Text) : JavaType :=
  let (element, dimensions) := splitSuffix text.trim
  ⟨element, dimensions⟩

/-- The same element type with this many dimensions. -/
def withDimensions (ty : JavaType) (dimensions : Nat) : JavaType :=
  { ty with dimensions }

/-- The type of arrays of this type. -/
def arrayOf (ty : JavaType) : JavaType :=
  ty.withDimensions (ty.dimensions + 1)

/-- Whether the type has any array dimension. -/
def isArray (ty : JavaType) : Bool :=
  0 < ty.dimensions

/-- Whether the element type is primitive or `void`. -/
def isPrimitive (ty : JavaType) : Bool :=
  primitives.contains ty.element

/-- The name without its package and enclosing types: `Inner` for `a.b.Outer$Inner`. -/
def simpleName (ty : JavaType) : Text :=
  ty.element.afterLast fun c => c == '.' || c == '$'

/-- A pair of brackets for each dimension. -/
def suffix (dimensions : Nat) : Text :=
  (List.replicate dimensions "[]".toList).flatten

/-- The binary name with a pair of brackets for each dimension. -/
def binaryName (ty : JavaType) : Text :=
  ty.element ++ suffix ty.dimensions

/-- The name as written in source: `a.b.Outer.Inner[]` for an array of `a.b.Outer$Inner`. -/
def canonicalName (ty : JavaType) : Text :=
  ty.element.replaceChar '$' '.' ++ suffix ty.dimensions

/-- The outermost type of a binary name: `a.b.Outer` for `a.b.Outer$Inner`. -/
def outermost (binaryName : Text) : Text :=
  binaryName.takeWhile (· != '$')

end JavaType

end DocAudit
