import DocAudit.Text

/-!
TOML values. Of numbers with a fraction and of dates only their presence counts.
-/

set_option autoImplicit false

namespace DocAudit.Toml

/-- A TOML value. The keys of a table are distinct and stay in order. -/
inductive Value where
  | string (text : Text)
  | integer (n : Int)
  | float
  | boolean (b : Bool)
  | dateTime
  | array (items : List Value)
  | table (entries : List (Text × Value))

/-- The number of arrays and inline tables around a value, and of keys in a dotted key, has to stay
below this. -/
def depthLimit : Nat := 80

/-- Spaces and tabs. -/
def isSpace (c : Char) : Bool :=
  c == ' ' || c == '\t'

/-- The characters that may stand in a comment: all but control characters, tabs apart. -/
def isPlain (c : Char) : Bool :=
  c == '\t' || (0x20 ≤ c.toNat && c.toNat != 0x7f)

/-- The text without the spaces before it. -/
def skipSpaces (t : Text) : Text :=
  t.dropWhile isSpace

/-- What follows the line break at the start of a text. -/
def dropLineBreak? : Text → Option Text
  | '\n' :: rest => some rest
  | '\r' :: '\n' :: rest => some rest
  | _ => none

end DocAudit.Toml
