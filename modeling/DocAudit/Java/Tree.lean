import DocAudit.Java.Token

/-!
Java source as trees of brackets, and the cuts that reading a declaration needs: at separators
outside of angle brackets, around annotations and comments, and at the keywords after a type.
-/

set_option autoImplicit false

namespace DocAudit.Java

/-- A token, or everything from an opening bracket to its closing one. -/
inductive Tree where
  | leaf (token : Token)
  | group (opening : Token) (items : List Tree) (closing : Token)

namespace Tree

/-- Whether the token opens a group. -/
def opens (t : Token) : Bool :=
  t.isSymbol '(' || t.isSymbol '[' || t.isSymbol '{'

/-- Whether the token closes a group. -/
def closes (t : Token) : Bool :=
  t.isSymbol ')' || t.isSymbol ']' || t.isSymbol '}'

/-- The trees of the tokens that follow `items`, in reverse, inside the groups `around`. Brackets
without partner stay single tokens. -/
def grow (around : List (Token × List Tree)) (items : List Tree) : List Token → List Tree
  | [] => (around.foldl (fun inner (opening, outer) => inner ++ leaf opening :: outer) items).reverse
  | t :: rest =>
    if opens t then grow ((t, items) :: around) [] rest
    else if closes t then
      match around with
      | (opening, outer) :: around => grow around (group opening items.reverse t :: outer) rest
      | [] => grow [] (leaf t :: items) rest
    else grow around (leaf t :: items) rest

/-- The trees of a run of tokens. -/
def ofTokens (tokens : List Token) : List Tree :=
  grow [] [] tokens

mutual

/-- The tokens of a tree. -/
def tokens : Tree → List Token
  | leaf t => [t]
  | group opening items closing => opening :: tokensOf items ++ [closing]

/-- The tokens of a run of trees. -/
def tokensOf : List Tree → List Token
  | [] => []
  | t :: rest => tokens t ++ tokensOf rest

end

/-- The source text of a run of trees, without the white space before it. -/
def source (trees : List Tree) : Text :=
  Token.source (tokensOf trees)

/-- The first token of a tree. -/
def first : Tree → Token
  | leaf t => t
  | group opening _ _ => opening

/-- Whether the tree is a comment. -/
def isComment : Tree → Bool
  | leaf t => t.isComment
  | group _ _ _ => false

/-- Whether the tree is the symbol `c`. -/
def isSymbol (c : Char) : Tree → Bool
  | leaf t => t.isSymbol c
  | group _ _ _ => false

/-- The name or keyword that the tree is. -/
def word? : Tree → Option Text
  | leaf t => if t.kind = .word then some t.text else none
  | group _ _ _ => none

/-- Whether the tree is the name or keyword `w`. -/
def isWord (w : Text) (t : Tree) : Bool :=
  t.word? == some w

/-- What stands between the bracket `c` and its partner, if that is the tree. -/
def inside? (c : Char) : Tree → Option (List Tree)
  | leaf _ => none
  | group opening items _ => if opening.isSymbol c then some items else none

/-! ### Comments at the ends -/

/-- The trees without the comments before them. -/
def dropComments (trees : List Tree) : List Tree :=
  trees.dropWhile isComment

/-- The trees without the comments after them. -/
def dropLastComments (trees : List Tree) : List Tree :=
  (trees.reverse.dropWhile isComment).reverse

/-- The source text of the trees between the comments at both ends. -/
def bareSource (trees : List Tree) : Text :=
  source (dropLastComments (dropComments trees))

/-! ### Angle brackets -/

/-- The number of open angle brackets after a tree. -/
def angles (depth : Nat) (t : Tree) : Nat :=
  if t.isSymbol '<' then depth + 1 else if t.isSymbol '>' then depth - 1 else depth

/-- The trees up to the angle bracket that closes the one already open, and those after it. -/
def cutAngle (depth : Nat) : List Tree → List Tree × List Tree
  | [] => ([], [])
  | t :: rest =>
    if depth = 0 && t.isSymbol '>' then ([], rest)
    else
      let (inner, after) := cutAngle (angles depth t) rest
      (t :: inner, after)

/-- The parts between the separators that stand outside of angle brackets. -/
def split (separator : Tree → Bool) (depth : Nat) : List Tree → List (List Tree)
  | [] => [[]]
  | t :: rest =>
    if depth = 0 && separator t then [] :: split separator depth rest
    else
      match split separator (angles depth t) rest with
      | part :: parts => (t :: part) :: parts
      | [] => [[t]]

/-! ### Dotted names and annotations -/

/-- How many trees belong to a dotted name; `afterWord` when its last word is already read. -/
def nameExtent (afterWord : Bool) : List Tree → Nat
  | [] => 0
  | t :: rest =>
    if t.isComment || afterWord && t.isSymbol '.' then
      match nameExtent (afterWord && t.isComment) rest with
      | 0 => 0
      | n + 1 => n + 2
    else if !afterWord && t.word?.isSome then nameExtent true rest + 1
    else 0

/-- The number of trees of an annotation's argument list, with the comments before it. -/
def argumentExtent : List Tree → Nat
  | [] => 0
  | t :: rest =>
    if t.isComment then
      match argumentExtent rest with
      | 0 => 0
      | n + 1 => n + 2
    else if (t.inside? '(').isSome then 1
    else 0

/-- Where a reader of types stands. A name may be any word, also one that is a keyword after a
type. -/
inductive TypePlace where
  /-- Before a name of a type. -/
  | start
  /-- Before a word of an annotation's name. -/
  | atSign
  /-- After a word of an annotation's name. -/
  | marker
  /-- After a type. -/
  | complete
deriving DecidableEq

/-- The place after one more tree outside of angle brackets. -/
def TypePlace.next (place : TypePlace) (t : Tree) : TypePlace :=
  if t.isComment then place
  else if t.isSymbol '@' then .atSign
  else if t.isSymbol '.' then if place = .marker then .atSign else .start
  else if t.isSymbol ',' || t.isSymbol '&' then .start
  else if t.word?.isSome then if place = .atSign then .marker else .complete
  else if place = .marker && (t.inside? '(').isSome then .start
  else .complete

/-- The last word outside of angle brackets and annotations, with what stands before and after
it. -/
def cutLastWord (depth : Nat) (place : TypePlace) :
    List Tree → Option (List Tree × Text × List Tree)
  | [] => none
  | t :: rest =>
    match cutLastWord (angles depth t) (place.next t) rest with
    | some (before, word, after) => some (t :: before, word, after)
    | none =>
      match t.word? with
      | some word => if depth = 0 && place ≠ .atSign then some ([], word, rest) else none
      | none => none

/-- The first list in parentheses that is not an argument list of an annotation, with what stands
before and after it. -/
def cutParentheses (place : TypePlace) : List Tree → Option (List Tree × List Tree × List Tree)
  | [] => none
  | t :: rest =>
    match t.inside? '(' with
    | some items =>
      if place = .marker then
        (cutParentheses .start rest).map fun (before, items, after) => (t :: before, items, after)
      else some ([], items, rest)
    | none =>
      (cutParentheses (place.next t) rest).map fun (before, items, after) =>
        (t :: before, items, after)

/-- What stands before the first keyword, and each keyword with what stands after it up to the next.
A keyword counts only after a type. -/
def clauses (keywords : List Text) (depth : Nat) (place : TypePlace) :
    List Tree → List Tree × List (Text × List Tree)
  | [] => ([], [])
  | t :: rest =>
    let word := (t.word?.filter fun word => depth = 0 && place = .complete && keywords.contains word)
    match word with
    | some word =>
      let (part, later) := clauses keywords 0 .start rest
      ([], (word, part) :: later)
    | none =>
      let place := if depth = 0 then place.next t else place
      let (part, later) := clauses keywords (angles depth t) place rest
      (t :: part, later)

end Tree

end DocAudit.Java
