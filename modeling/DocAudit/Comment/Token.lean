import DocAudit.Text

/-!
Tokens of comment text. A text falls into maximal runs of white space, quoted passages, single
markers and words, so the texts of its tokens concatenate to it.
-/

set_option autoImplicit false

namespace DocAudit.Comment

/-- The four kinds of token in comment text. -/
inductive TokenKind where
  /-- A maximal run of white space, line feeds included. -/
  | blank
  /-- A passage from a quote to the next quote, or to the end when there is none. -/
  | quoted
  /-- A single brace or at sign. -/
  | marker
  /-- A run of anything else, up to white space or a marker. -/
  | word
deriving DecidableEq

/-- A token with the number of line feeds up to its end. -/
structure Token where
  kind : TokenKind
  text : Text
  line : Nat
deriving DecidableEq

namespace Token

/-- The characters that always stand alone. -/
def isMarkerChar (c : Char) : Bool :=
  c == '{' || c == '}' || c == '@'

/-- The kind of a token is decided by its first character. -/
def kindOf (first : Char) : TokenKind :=
  if Text.isBlank first then .blank
  else if first = '"' then .quoted
  else if isMarkerChar first then .marker
  else .word

/-- How many characters of `rest` belong to a token of this kind after its first character. -/
def extent (kind : TokenKind) (rest : Text) : Nat :=
  match kind with
  | .blank => (rest.takeWhile Text.isBlank).length
  | .quoted =>
    let inside := (rest.takeWhile (· != '"')).length
    if inside < rest.length then inside + 1 else inside
  | .marker => 0
  | .word => (rest.takeWhile fun c => !(Text.isBlank c || isMarkerChar c)).length

/-- The tokens of a text that follows `line` line feeds. -/
def scanFrom (line : Nat) : Text → List Token
  | [] => []
  | first :: rest =>
    let kind := kindOf first
    let size := extent kind rest
    let text : Text := first :: rest.take size
    let line' := line + text.lineFeeds
    ⟨kind, text, line'⟩ :: scanFrom line' (rest.drop size)
termination_by t => t.length
decreasing_by simp only [List.length_drop, List.length_cons]; omega

/-- The tokens of a text, in order. -/
def scan (text : Text) : List Token :=
  scanFrom 0 text

/-- Whether the token is white space. -/
def isBlank (t : Token) : Bool :=
  t.kind == .blank

/-- Whether the token is the single marker `c`. -/
def isMarker (t : Token) (c : Char) : Bool :=
  t.kind == .marker && t.text == [c]

/-- Whether the token runs over the end of a line. -/
def spansLines (t : Token) : Bool :=
  t.text.contains '\n'

end Token

end DocAudit.Comment
