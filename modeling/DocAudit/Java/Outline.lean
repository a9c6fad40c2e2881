import DocAudit.Java.Syntax

/-!
What a Java source declares: its package and imports, its types with their members, and every
declaration with the documentation comment that stands before it.
-/

set_option autoImplicit false

namespace DocAudit.Java

namespace Item

/-- The documentation comment before an item, when `before` are the items before it, the nearest
first. Other comments may stand between, anything else ends the search. -/
def docComment? : List Item → Option DocComment
  | comment kind text line :: before =>
    if kind = .blockComment && text.startsWith "/**" && text != ("/**/" : Text) then
      some ⟨text, line⟩
    else docComment? before
  | _ => none

/-- The members that the items of a body declare. -/
def members (items : List Item) : List Member :=
  items.flatMap fun
    | callable _ _ header =>
      let types := header.parameters.map (·.type)
      if header.result.isSome then [.method header.name types header.typeVariables]
      else [.constructor types header.typeVariables]
    | field _ _ names => names.map .field
    | constant name => [.field name]
    | element name => [.method name [] []]
    | _ => []

end Item

namespace Modifiers

/-- Who may see a declaration with these modifiers. Members of interfaces and annotation types are
seen everywhere unless they say otherwise. -/
def visibility (m : Modifiers) (inInterface : Bool) : Visibility :=
  if m.keywords.contains "public" then .everywhere
  else if m.keywords.contains "protected" then .subclasses
  else if m.keywords.contains "private" then .declaringType
  else if inInterface then .everywhere
  else .package

end Modifiers

/-- The type around an item: its binary name, the name of the outermost type, and whether its
members are seen everywhere. -/
structure Surrounding where
  binaryName : Text
  outermost : Text
  isInterface : Bool
deriving DecidableEq

/-- What an item stands in: a package (or none), or a type. -/
inductive Surroundings where
  | package (name : Option Text)
  | type (around : Surrounding)
deriving DecidableEq

namespace Surroundings

/-- The binary name of a type declared here. -/
def binaryName (s : Surroundings) (name : Text) : Text :=
  match s with
  | package none => name
  | package (some prior) => prior ++ "." ++ name
  | type around => around.binaryName ++ "$" ++ name

/-- Whether declarations here are seen everywhere unless they say otherwise. -/
def isInterface : Surroundings → Bool
  | package _ => false
  | type around => around.isInterface

/-- The binary name of the type around. -/
def owner : Surroundings → Text
  | package _ => []
  | type around => around.binaryName

/-- The name of the outermost type around. -/
def outermost : Surroundings → Text
  | package _ => []
  | type around => around.outermost

/-- The inside of a type declared here. -/
def enter (s : Surroundings) (header : TypeHeader) : Surroundings :=
  let name := s.binaryName header.name
  type {
    binaryName := name
    outermost := match s with
      | package _ => name
      | type around => around.outermost
    isInterface := header.kind == .interfaceType || header.kind == .annotationType }

end Surroundings

namespace Item

/-- What all declarations have in common, for the one after the items `before`. -/
def declare (s : Surroundings) (before : List Item) (kind : DeclarationKind) (name : Text)
    (line : Nat) (modifiers : Modifiers) : Declaration where
  kind := kind
  name := name
  visibility := modifiers.visibility s.isInterface
  owner := s.owner
  outermost := s.outermost
  line := line
  comment := docComment? before
  parameters := []
  typeVariables := []
  throws := []
  returnType := none
  hasSupertypes := false
  annotations := modifiers.annotations

/-- The declaration of a type. -/
def declareType (s : Surroundings) (before : List Item) (line : Nat) (modifiers : Modifiers)
    (header : TypeHeader) : Declaration :=
  { declare s before header.kind header.name line modifiers with
    owner := (s.enter header).owner
    outermost := (s.enter header).outermost
    parameters := header.components
    typeVariables := header.typeVariables
    hasSupertypes := header.superclass.isSome || !header.interfaces.isEmpty }

/-- The declaration of a method or constructor. -/
def declareCallable (s : Surroundings) (before : List Item) (line : Nat) (modifiers : Modifiers)
    (header : CallableHeader) : Declaration :=
  let kind : DeclarationKind := if header.result.isSome then .method else .constructor
  { declare s before kind header.name line modifiers with
    parameters := header.parameters
    typeVariables := header.typeVariables
    throws := header.throws
    returnType := header.result }

/-- The declarations of a run of items that follows `before`, of which the nearest comes first. A
type comes before what it holds. -/
def declarations (s : Surroundings) (before : List Item) : List Item → List Declaration
  | [] => []
  | type line modifiers header body :: rest =>
    declareType s before line modifiers header :: declarations (s.enter header) [] body ++
      declarations s (type line modifiers header body :: before) rest
  | callable line modifiers header :: rest =>
    declareCallable s before line modifiers header ::
      declarations s (callable line modifiers header :: before) rest
  | field line modifiers names :: rest =>
    declare s before .field (Text.join ", " names) line modifiers ::
      declarations s (field line modifiers names :: before) rest
  | item :: rest => declarations s (item :: before) rest
termination_by items => sizeOf items

/-- The types of a run of items. A type comes before what it holds. -/
def types (s : Surroundings) : List Item → List TypeDeclaration
  | [] => []
  | type _ _ header body :: rest =>
    { kind := header.kind
      binaryName := s.binaryName header.name
      superclass := header.superclass
      interfaces := header.interfaces
      typeVariables := header.typeVariables
      members := members body
      components := header.components } ::
      types (s.enter header) body ++ types s rest
  | _ :: rest => types s rest
termination_by items => sizeOf items

/-- The package of a source: the last that it names. -/
def packageName (items : List Item) : Option Text :=
  (items.filterMap fun
    | package name => some name
    | _ => none).getLast?

/-- The imports of a source. -/
def imports (items : List Item) : List Import :=
  items.filterMap fun
    | imported i => some i
    | _ => none

/-- What the items of a source declare. -/
def outline (items : List Item) : CompilationUnit where
  package := packageName items
  imports := imports items
  types := types (.package (packageName items)) items
  declarations := declarations (.package (packageName items)) [] items

end Item

/-- What a Java source declares. -/
def outline (source : Text) : CompilationUnit :=
  Item.outline (Item.ofSource source)

end DocAudit.Java
