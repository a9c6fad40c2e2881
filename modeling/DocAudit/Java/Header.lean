import DocAudit.Declaration
import DocAudit.Java.Tree

/-!
The headers of Java declarations: modifiers, type variables, parameters and lists of types. Types
are kept as written. A comment between the types of a list is an item of the list, as is one before
the type of a parameter with a variable number of arguments.
-/

set_option autoImplicit false

namespace DocAudit.Java

/-- The keywords and the names of the annotations before a declaration. -/
structure Modifiers where
  keywords : List Text := []
  annotations : List Text := []
deriving DecidableEq

namespace Modifiers

/-- The keywords that may stand before a declaration. -/
def all : List Text :=
  ["public", "protected", "private", "abstract", "static", "final", "strictfp", "default",
    "synchronized", "native", "transient", "volatile", "sealed", "non-sealed"]

/-- The keyword that a tree is, if it may stand before a declaration. -/
def keyword? (t : Tree) : Option Text :=
  t.word?.filter all.contains

/-- The trees after the keyword of an annotation type, if they start with it. The keyword includes
the at sign, and a name may follow without a space. -/
def annotationType? : List Tree → Option (List Tree)
  | sign :: .leaf t :: rest =>
    if sign.isSymbol '@' && t.kind = .word && t.before.isEmpty && t.text.startsWith "interface" then
      match t.text.drop 9 with
      | [] => some rest
      | name => some (.leaf { t with text := name } :: rest)
    else none
  | _ => none

/-- The name of the annotation that the trees start with, and the number of trees it takes. -/
def annotation? : List Tree → Option (Text × Nat)
  | [] => none
  | t :: rest =>
    if t.isSymbol '@' then
      let size := Tree.nameExtent false rest
      if size = 0 then none
      else
        some (Tree.bareSource (rest.take size), 1 + size + Tree.argumentExtent (rest.drop size))
    else none

/-- The modifiers that the trees start with, and the trees after them. Comments are skipped as long
as a modifier follows. Where a type may be declared, the keyword of an annotation type is no
annotation. -/
def read (declaresType : Bool) : List Tree → Modifiers × List Tree
  | [] => ({}, [])
  | t :: rest =>
    match keyword? t with
    | some word =>
      let (m, after) := read declaresType rest
      ({ m with keywords := word :: m.keywords }, after)
    | none =>
      let isType := declaresType && (annotationType? (t :: rest)).isSome
      match if isType then none else annotation? (t :: rest) with
      | some (name, size) =>
        let (m, after) := read declaresType (rest.drop (size - 1))
        ({ m with annotations := name :: m.annotations }, after)
      | none =>
        if t.isComment then
          let (m, after) := read declaresType rest
          if m = {} then ({}, t :: rest) else (m, after)
        else ({}, t :: rest)
termination_by trees => trees.length
decreasing_by all_goals simp only [List.length_drop, List.length_cons]; omega

end Modifiers

namespace Header

/-- The trees without the annotations and comments before them. -/
def dropAnnotations : List Tree → List Tree
  | [] => []
  | t :: rest =>
    if t.isComment then dropAnnotations rest
    else
      match Modifiers.annotation? (t :: rest) with
      | some (_, size) => dropAnnotations (rest.drop (size - 1))
      | none => t :: rest
termination_by trees => trees.length
decreasing_by all_goals simp only [List.length_drop, List.length_cons]; omega

/-- The first item of a run of trees: a comment, or else all of them. -/
def firstItem (trees : List Tree) : Text :=
  match trees with
  | t :: rest => if t.isComment then t.first.text else Tree.bareSource (t :: rest)
  | [] => []

/-- The items of a list of types: the types and the comments around them. -/
def typeList (trees : List Tree) : List Text :=
  (Tree.split (Tree.isSymbol ',') 0 (Tree.dropLastComments trees)).flatMap fun item =>
    let comments := fun (l : List Tree) => l.map fun t => t.first.text
    let type := Tree.dropComments item
    comments (item.takeWhile Tree.isComment) ++ [Tree.bareSource type] ++
      comments (type.drop (Tree.dropLastComments type).length)

/-- A type variable and the first item of its bound. -/
def typeVariable? (trees : List Tree) : Option TypeVariable :=
  match dropAnnotations trees with
  | t :: rest =>
    t.word?.map fun name =>
      match Tree.dropComments rest with
      | keyword :: bound =>
        if keyword.isWord "extends" then
          ⟨name, (Tree.split (Tree.isSymbol '&') 0 bound).head?.map firstItem⟩
        else ⟨name, none⟩
      | [] => ⟨name, none⟩
  | [] => none

/-- The type variables that the trees start with, and the trees after them. -/
def typeVariables (trees : List Tree) : List TypeVariable × List Tree :=
  match Tree.dropComments trees with
  | t :: rest =>
    if t.isSymbol '<' then
      let (inner, after) := Tree.cutAngle 0 rest
      ((Tree.split (Tree.isSymbol ',') 0 inner).filterMap typeVariable?, after)
    else ([], t :: rest)
  | [] => ([], [])

/-- The parts before and after three dots in a row. -/
def cutDots : List Tree → Option (List Tree × List Tree)
  | [] => none
  | t :: rest =>
    match rest with
    | u :: v :: after =>
      if t.isSymbol '.' && u.isSymbol '.' && v.isSymbol '.' then some ([], after)
      else (cutDots rest).map fun (before, after) => (t :: before, after)
    | _ => none

/-- Whether the name `this` after a type marks the receiver of a method: after a qualified name of
its type, or in front of all parameters and without modifiers. -/
def isReceiver (isFirst : Bool) (modifiers : Modifiers) (type : List Tree) (name : Text) : Bool :=
  name = "this" &&
    (isFirst && modifiers = {} || (Tree.dropLastComments type).getLast?.any (Tree.isSymbol '.'))

/-- The parameter that the trees between two commas declare. The receiver of a method is none.
Brackets after the name belong to the type. -/
def parameter? (isFirst : Bool) (trees : List Tree) : Option Parameter :=
  let (modifiers, rest) := Modifiers.read false (Tree.dropComments trees)
  match cutDots rest with
  | some (type, after) =>
    let name := (dropAnnotations after).head?.bind Tree.word?
    let type := if modifiers = {} then Tree.bareSource type else firstItem type
    some ⟨name.getD [], type ++ "..."⟩
  | none =>
    match Tree.cutLastWord 0 .start rest with
    | some (type, name, brackets) =>
      if isReceiver isFirst modifiers type name then none
      else
        some ⟨name, Tree.bareSource type ++ (Tree.bareSource brackets).filter (· != ' ')⟩
    | none => none

/-- The parameters in a pair of parentheses. -/
def parameters (trees : List Tree) : List Parameter :=
  match Tree.split (Tree.isSymbol ',') 0 trees with
  | [] => []
  | first :: others => (parameter? true first).toList ++ others.filterMap (parameter? false)

/-- The types after a keyword, one of those that may follow a type. -/
def clauseTypes (keywords : List Text) (trees : List Tree) (keyword : Text) : List Text :=
  (((Tree.clauses keywords 0 .complete trees).2.lookup keyword).map typeList).getD []

end Header

/-- The header of a type declaration. -/
structure TypeHeader where
  kind : DeclarationKind
  name : Text
  typeVariables : List TypeVariable
  superclass : Option Text
  interfaces : List Text
  components : List Parameter
deriving DecidableEq

namespace TypeHeader

/-- The kind of type that the trees start to declare, with the trees after its keyword. A record
is told from a method by the name after its keyword. -/
def kind? (trees : List Tree) : Option (DeclarationKind × List Tree) :=
  match Tree.dropComments trees with
  | t :: rest =>
    if t.isWord "class" then some (.classType, rest)
    else if t.isWord "interface" then some (.interfaceType, rest)
    else if t.isWord "enum" then some (.enumType, rest)
    else if t.isSymbol '@' then
      (Modifiers.annotationType? (t :: rest)).map fun rest => (.annotationType, rest)
    else if t.isWord "record" then
      match Tree.dropComments rest with
      | name :: after =>
        let opens := (Tree.dropComments after).head?.any fun u =>
          u.isSymbol '<' || (u.inside? '(').isSome
        if name.word?.isSome && opens then some (.recordType, rest) else none
      | [] => none
    else none
  | [] => none

/-- The header that the trees hold, without modifiers and body. -/
def read? (trees : List Tree) : Option TypeHeader := do
  let (kind, rest) ← kind? trees
  let name :: rest := Tree.dropComments rest | none
  let name ← name.word?
  let (typeVariables, rest) := Header.typeVariables rest
  let (components, rest) :=
    match kind, Tree.cutParentheses .start rest with
    | .recordType, some (_, items, after) => (Header.parameters items, after)
    | _, _ => ([], rest)
  let types := Header.clauseTypes ["extends", "implements", "permits"] rest
  let isInterface := kind == .interfaceType
  return {
    kind, name, typeVariables, components
    superclass := if isInterface then none else (types "extends").head?
    interfaces := types (if isInterface then "extends" else "implements") }

end TypeHeader

/-- The header of a method or constructor. A constructor has no result type. -/
structure CallableHeader where
  name : Text
  typeVariables : List TypeVariable
  parameters : List Parameter
  throws : List Text
  result : Option Text
deriving DecidableEq

namespace CallableHeader

/-- The header that the trees hold, without modifiers and body. -/
def read? (trees : List Tree) : Option CallableHeader := do
  let (typeVariables, rest) := Header.typeVariables trees
  let (before, items, after) ← Tree.cutParentheses .start (Header.dropAnnotations rest)
  let (type, name, _) ← Tree.cutLastWord 0 .start before
  return {
    name, typeVariables
    parameters := Header.parameters items
    throws := Header.clauseTypes ["throws"] after "throws"
    result :=
      match Tree.dropComments type with
      | [] => none
      | type => some (Tree.bareSource type) }

end CallableHeader

namespace Header

/-- How many trees belong to type arguments after their opening bracket, of which `depth` more are
open; `none` if they are no type arguments. -/
def argumentsExtent? (depth : Nat) : List Tree → Option Nat
  | [] => none
  | t :: rest =>
    if t.isSymbol '>' then
      match depth with
      | 0 => some 1
      | depth + 1 => (argumentsExtent? depth rest).map (· + 1)
    else if t.isSymbol '<' then (argumentsExtent? (depth + 1) rest).map (· + 1)
    else if t.isComment || t.word?.isSome || t.isSymbol '.' || t.isSymbol ',' || t.isSymbol '?' ||
        t.isSymbol '&' || t.isSymbol '@' || (t.inside? '[').isSome || (t.inside? '(').isSome then
      (argumentsExtent? depth rest).map (· + 1)
    else none

/-- The declarators of a field: the parts between commas that are not in type arguments. -/
def declarators : List Tree → List (List Tree)
  | [] => [[]]
  | t :: rest =>
    if t.isSymbol ',' then [] :: declarators rest
    else
      let size := if t.isSymbol '<' then (argumentsExtent? 0 rest).getD 0 else 0
      match declarators (rest.drop size) with
      | part :: parts => (t :: rest.take size ++ part) :: parts
      | [] => [t :: rest.take size]
termination_by trees => trees.length
decreasing_by all_goals simp only [List.length_drop, List.length_cons]; omega

/-- The names that a field declares. -/
def fieldNames (trees : List Tree) : List Text :=
  (declarators trees).filterMap fun part =>
    (Tree.cutLastWord 0 .start (part.takeWhile fun t => !t.isSymbol '=')).map fun (_, name, _) =>
      name

/-- The name of a package or of an import, with whether it ends in a star. -/
def importedName (trees : List Tree) : Text × Bool :=
  let size := Tree.nameExtent false trees
  (Tree.bareSource (trees.take size), (trees.drop size).any (Tree.isSymbol '*'))

end Header

end DocAudit.Java
