import DocAudit.Java.Header

/-!
The syntax of a Java source as far as documentation depends on it: the items of a source or a type
body in order, comments among them. Bodies of methods, initializers and values are left out.
-/

set_option autoImplicit false

namespace DocAudit.Java

/-- An item of a source or a type body, with the line it starts on. -/
inductive Item where
  | comment (kind : TokenKind) (text : Text) (line : Nat)
  | package (name : Text)
  | imported (i : Import)
  | type (line : Nat) (modifiers : Modifiers) (header : TypeHeader) (body : List Item)
  | callable (line : Nat) (modifiers : Modifiers) (header : CallableHeader)
  | field (line : Nat) (modifiers : Modifiers) (names : List Text)
  /-- A constant of an enumeration. -/
  | constant (name : Text)
  /-- An element of an annotation type. -/
  | element (name : Text)
  /-- Anything else: an initializer, a stray semicolon, a statement. -/
  | other

namespace Item

/-- What surrounds an item: the source itself, or the body of a kind of type. -/
inductive Place where
  | source
  | body (kind : DeclarationKind)
deriving DecidableEq

/-- The line that a run of trees starts on. -/
def startLine (trees : List Tree) : Nat :=
  (trees.head?.map fun t => t.first.line).getD 0

/-- Whether the word `package` between modifiers and a name is a keyword. After several annotations
and before a plain name it is the type of a variable. -/
def isPackage (modifiers : Modifiers) (name : Text) : Bool :=
  modifiers.keywords.isEmpty && (modifiers.annotations.length ≤ 1 || name.contains '.')

/-- The item that ends with a semicolon and holds these trees. -/
def ofStatement (place : Place) (trees : List Tree) : Item :=
  let (modifiers, rest) := Modifiers.read true trees
  match place, Tree.dropComments rest with
  | .source, keyword :: rest =>
    let name := (Header.importedName rest).1
    if keyword.isWord "package" && isPackage modifiers name then .package name
    else if keyword.isWord "import" && modifiers = {} then
      let isStatic := (Tree.dropComments rest).head?.any (Tree.isWord "static")
      let path := if isStatic then (Tree.dropComments rest).drop 1 else rest
      let (name, isWildcard) := Header.importedName path
      if name.isEmpty then .other else .imported ⟨name, isWildcard, isStatic⟩
    else .other
  | .body kind, rest =>
    let line := startLine trees
    let isField := (Header.declarators rest).head?.all fun part =>
      (Tree.cutParentheses .start (part.takeWhile fun t => !t.isSymbol '=')).isNone
    if isField then
      match Header.fieldNames rest with
      | [] => .other
      | names => .field line modifiers names
    else
      match CallableHeader.read? rest with
      | some header =>
        if kind = .annotationType then .element header.name else .callable line modifiers header
      | none => .other
  | _, _ => .other

/-- The method, constructor or initializer that ends with a block and holds these trees. -/
def ofBlock (place : Place) (trees : List Tree) : Item :=
  let (modifiers, rest) := Modifiers.read true trees
  match place, CallableHeader.read? rest with
  | .body _, some header => .callable (startLine trees) modifiers header
  | _, _ => .other

/-- The constant of an enumeration that these trees declare. -/
def ofConstant (trees : List Tree) : List Item :=
  match (Tree.dropComments (Modifiers.read false trees).2).head?.bind Tree.word? with
  | some name => [.constant name]
  | none => []

/-- A comment as an item. -/
def ofComment (t : Tree) : Item :=
  .comment t.first.kind t.first.text t.first.line

/-- Whether a tree after those held starts the value of a field or of an annotation's element, inside
which a block does not end the item. Before the parentheses of an element `default` is a modifier or
a name. -/
def startsValue (place : Place) (held : List Tree) (t : Tree) : Bool :=
  t.isSymbol '=' ||
    (place == .body .annotationType && t.isWord "default" &&
      (Tree.cutParentheses .start (Modifiers.read true held.reverse).2).isSome)

mutual

/-- The items of the body of a type of some kind. -/
def readBody (kind : DeclarationKind) : Tree → List Item
  | .leaf _ => []
  | .group _ items _ =>
    if kind = .enumType then readConstants [] items else read (.body kind) [] false items

/-- The items of a run of trees. `held` are the trees of an item begun, in reverse, and `inValue`
says whether it has come to a value. -/
def read (place : Place) (held : List Tree) (inValue : Bool) : List Tree → List Item
  | [] => []
  | t :: rest =>
    if held.isEmpty && t.isComment then ofComment t :: read place [] false rest
    else if t.isSymbol ';' then ofStatement place held.reverse :: read place [] false rest
    else if (t.inside? '{').isSome && !inValue then
      let trees := held.reverse
      let (modifiers, header) := Modifiers.read true trees
      let item :=
        match TypeHeader.read? header with
        | some header => .type (startLine trees) modifiers header (readBody header.kind t)
        | none => ofBlock place trees
      item :: read place [] false rest
    else read place (t :: held) (inValue || startsValue place held t) rest

/-- The items of the body of an enumeration: its constants, and after a semicolon its members. -/
def readConstants (held : List Tree) : List Tree → List Item
  | [] => ofConstant held.reverse
  | t :: rest =>
    if held.isEmpty && t.isComment then ofComment t :: readConstants [] rest
    else if t.isSymbol ',' then ofConstant held.reverse ++ .other :: readConstants [] rest
    else if t.isSymbol ';' then
      ofConstant held.reverse ++ .other :: read (.body .enumType) [] false rest
    else readConstants (t :: held) rest

end

end Item

/-- The items of a Java source. -/
def Item.ofSource (source : Text) : List Item :=
  Item.read .source [] false (Tree.ofTokens (Token.scan source))

end DocAudit.Java
