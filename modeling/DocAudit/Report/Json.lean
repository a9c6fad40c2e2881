import DocAudit.Text

/-!
JSON values and their two written forms: on one line without spaces, or with an indentation of two
spaces for each level.
-/

set_option autoImplicit false

namespace DocAudit

/-- A JSON value. The fields of an object stay in order. -/
inductive Json where
  | null
  | number (n : Nat)
  | string (text : Text)
  | array (items : List Json)
  | object (fields : List (Text × Json))

namespace Json

/-- What stands between the parts of a value: the line break at a depth, and the mark after the name
of a field. -/
structure Layout where
  line : Nat → Text
  colon : Text

/-- Everything on one line. -/
def Layout.compact : Layout where
  line _ := []
  colon := ":"

/-- One line for each item, two spaces deeper than what holds it. -/
def Layout.indented : Layout where
  line depth := '\n' :: List.replicate (2 * depth) ' '
  colon := ": "

/-- A hexadecimal digit. -/
def hexDigit (n : Nat) : Char :=
  Nat.digitChar n

/-- A character inside a string: quotes, backslashes and control characters are escaped. -/
def escapeChar (c : Char) : Text :=
  if c = '"' then "\\\""
  else if c = '\\' then "\\\\"
  else if c = '\n' then "\\n"
  else if c = '\t' then "\\t"
  else if c = '\r' then "\\r"
  else if c = '\x08' then "\\b"
  else if c = '\x0c' then "\\f"
  else if c.toNat < 0x20 then "\\u00" ++ [hexDigit (c.toNat / 16), hexDigit (c.toNat % 16)]
  else [c]

/-- A text as a JSON string. -/
def quote (t : Text) : Text :=
  '"' :: t.flatMap escapeChar ++ ['"']

mutual

/-- The written form of a value that starts at a depth. -/
def write (layout : Layout) (depth : Nat) : Json → Text
  | null => "null"
  | number n => Text.ofNat n
  | string t => quote t
  | array [] => "[]"
  | array items =>
    '[' :: layout.line (depth + 1) ++ Text.join (',' :: layout.line (depth + 1))
      (writeItems layout (depth + 1) items) ++ layout.line depth ++ [']']
  | object [] => ['{', '}']
  | object fields =>
    '{' :: layout.line (depth + 1) ++ Text.join (',' :: layout.line (depth + 1))
      (writeFields layout (depth + 1) fields) ++ layout.line depth ++ ['}']

/-- The written forms of the items of an array. -/
def writeItems (layout : Layout) (depth : Nat) : List Json → List Text
  | [] => []
  | item :: rest => write layout depth item :: writeItems layout depth rest

/-- The written forms of the fields of an object. -/
def writeFields (layout : Layout) (depth : Nat) : List (Text × Json) → List Text
  | [] => []
  | field :: rest => writeField layout depth field :: writeFields layout depth rest

/-- The written form of a field. -/
def writeField (layout : Layout) (depth : Nat) : Text × Json → Text
  | (name, value) => quote name ++ layout.colon ++ write layout depth value

end

/-- The written form of a value. -/
def render (layout : Layout) (value : Json) : Text :=
  write layout 0 value

end Json

end DocAudit
