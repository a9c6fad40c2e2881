import DocAudit.Text

/-!
The tokens of Java source. Comments are tokens too, and every token keeps the white space before it,
so a run of tokens gives back the text it was read from.
-/

set_option autoImplicit false

namespace DocAudit.Java

/-- The kinds of token, as far as declarations depend on them. -/
inductive TokenKind where
  /-- A name or keyword; `non-sealed` is one keyword. -/
  | word
  /-- A number, character, string or text block. -/
  | literal
  /-- A single character of punctuation. -/
  | symbol
  | lineComment
  | blockComment
deriving DecidableEq

/-- A token with the white space before it and the line it starts on. -/
structure Token where
  kind : TokenKind
  before : Text
  text : Text
  line : Nat
deriving DecidableEq

namespace Token

/-- White space, and the mark that may stand before a whole text. -/
def isBlank (c : Char) : Bool :=
  Text.isBlank c || c == '\ufeff'

/-- The characters of names and numbers. Every character outside of ASCII counts as a letter. -/
def isWordChar (c : Char) : Bool :=
  c.isAlphanum || c == '_' || c == '$' || (0x80 ≤ c.toNat && !isBlank c)

/-- The number of characters up to the end of a comment. -/
def blockExtent : Text → Nat
  | '*' :: '/' :: _ => 2
  | _ :: rest => blockExtent rest + 1
  | [] => 0

/-- The number of characters up to the end of a character literal. -/
def charExtent : Text → Nat
  | '\\' :: _ :: rest => charExtent rest + 2
  | '\'' :: _ => 1
  | _ :: rest => charExtent rest + 1
  | [] => 0

/-- What a reader of a string can be inside of. -/
inductive Region where
  /-- A string between single quotation marks. -/
  | quoted
  /-- A text block, between three quotation marks in a row. -/
  | textBlock
  /-- An embedded expression of a template, or a pair of braces in one. -/
  | embedded

/-- The number of characters after `first` that an embedded expression passes over with it: the rest
of a comment or a character literal. -/
def passed (first : Char) (rest : Text) : Nat :=
  if first = '/' && rest.startsWith "/" then (rest.takeWhile (· != '\n')).length
  else if first = '/' && rest.startsWith "*" then blockExtent (rest.drop 1) + 1
  else if first = '\'' then charExtent rest
  else 0

/-- The regions that take the place of the innermost one at the character `first`, and the number of
characters after it that go with it. A backslash takes the next character with it, and with an
opening brace it starts an embedded expression. -/
def Region.next (region : Region) (first : Char) (rest : Text) : List Region × Nat :=
  match region with
  | embedded =>
    if first = '}' then ([], 0)
    else if first = '{' then ([embedded, embedded], 0)
    else if first = '"' && rest.startsWith "\"\"" then ([textBlock, embedded], 2)
    else if first = '"' then ([quoted, embedded], 0)
    else ([embedded], passed first rest)
  | region =>
    let closing : Text := match region with
      | textBlock => "\"\"\""
      | _ => "\""
    if first = '\\' then (if rest.head? == some '{' then [embedded, region] else [region], 1)
    else if closing.isPrefixOf (first :: rest) then ([], closing.length - 1)
    else ([region], 0)

/-- The number of characters up to the end of all regions around a place, given from the innermost
outwards. -/
def regionsExtent : List Region → Text → Nat
  | [], _ => 0
  | _, [] => 0
  | region :: around, first :: rest =>
    let (inner, size) := region.next first rest
    size + 1 + regionsExtent (inner ++ around) (rest.drop size)
termination_by _ t => t.length
decreasing_by simp only [List.length_drop, List.length_cons]; omega

/-- The kind of the token that starts with `first`, and how many characters of `rest` belong to
it. -/
def lexeme (first : Char) (rest : Text) : TokenKind × Nat :=
  if first = '/' && rest.startsWith "/" then
    (.lineComment, (rest.takeWhile (· != '\n')).length)
  else if first = '/' && rest.startsWith "*" then (.blockComment, blockExtent (rest.drop 1) + 1)
  else if first = '"' && rest.startsWith "\"\"" then
    (.literal, regionsExtent [.textBlock] (rest.drop 2) + 2)
  else if first = '"' then (.literal, regionsExtent [.quoted] rest)
  else if first = '\'' then (.literal, charExtent rest)
  else if "non-sealed".toList.isPrefixOf (first :: rest) then (.word, 9)
  else if isWordChar first then
    (if first.isDigit then .literal else .word, (rest.takeWhile isWordChar).length)
  else (.symbol, 0)

/-- The tokens of a text that follows the white space `before` and starts on `line`. -/
def scanFrom (line : Nat) (before : Text) : Text → List Token
  | [] => []
  | first :: rest =>
    if isBlank first then
      scanFrom (if first = '\n' then line + 1 else line) (before ++ [first]) rest
    else
      let (kind, size) := lexeme first rest
      let text : Text := first :: rest.take size
      ⟨kind, before, text, line⟩ :: scanFrom (line + text.lineFeeds) [] (rest.drop size)
termination_by t => t.length
decreasing_by
  · simp
  · simp only [List.length_drop, List.length_cons]; omega

/-- The tokens of a source text. Its first line has number one. -/
def scan (source : Text) : List Token :=
  scanFrom 1 [] source

/-- Whether the token is a comment. -/
def isComment (t : Token) : Bool :=
  t.kind == .lineComment || t.kind == .blockComment

/-- Whether the token is the symbol `c`. -/
def isSymbol (t : Token) (c : Char) : Bool :=
  t.kind == .symbol && t.text == [c]

/-- Whether the token is the keyword or name `w`. -/
def isWord (t : Token) (w : Text) : Bool :=
  t.kind == .word && t.text == w

/-- The source text of a run of tokens, without the white space before it. -/
def source : List Token → Text
  | [] => []
  | t :: rest => t.text ++ rest.flatMap fun u => u.before ++ u.text

end Token

end DocAudit.Java
