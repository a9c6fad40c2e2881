import DocAudit.Text
import DocAudit.Text.Shown

/-!
Lists of texts as they stand in messages: each text in double quotes, and what does not show by
itself as an escape.
-/

set_option autoImplicit false

namespace DocAudit.Text

/-- A character inside double quotes. -/
def escapeQuoted (c : Char) : Text :=
  if c = '\t' then "\\t"
  else if c = '\r' then "\\r"
  else if c = '\n' then "\\n"
  else if c = '\x00' then "\\0"
  else if c = '"' then "\\\""
  else if c = '\\' then "\\\\"
  else if isShown c then [c]
  else "\\u\x7b" ++ Nat.toDigits 16 c.toNat ++ ['}']

/-- A text in double quotes. -/
def quoted (t : Text) : Text :=
  '"' :: t.flatMap escapeQuoted ++ ['"']

/-- A list of texts, each in double quotes. -/
def quotedList (ts : List Text) : Text :=
  '[' :: join ", " (ts.map quoted) ++ [']']

end DocAudit.Text
