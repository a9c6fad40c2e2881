import DocAudit.Toml.Value

/-!
The four kinds of TOML string: basic strings with escapes and literal strings without, each on one
line or over several. Line breaks inside a string are single line feeds.
-/

set_option autoImplicit false

namespace DocAudit.Toml.Quoted

/-- The value of a hexadecimal digit. -/
def hexValue? (c : Char) : Option Nat :=
  if c.isDigit then some (c.toNat - '0'.toNat)
  else if 'a' ≤ c && c ≤ 'f' then some (c.toNat - 'a'.toNat + 10)
  else if 'A' ≤ c && c ≤ 'F' then some (c.toNat - 'A'.toNat + 10)
  else none

/-- The character whose number is written in hexadecimal digits. -/
def scalar? (digits : Text) : Option Char := do
  let values ← digits.mapM hexValue?
  let n := values.foldl (fun n d => 16 * n + d) 0
  if n.isValidChar then some (Char.ofNat n) else none

/-- The character that a backslash and one more character stand for. -/
def escape? (c : Char) : Option Char :=
  if c = '"' then some '"'
  else if c = '\\' then some '\\'
  else if c = 'b' then some '\x08'
  else if c = 't' then some '\t'
  else if c = 'n' then some '\n'
  else if c = 'f' then some '\x0c'
  else if c = 'r' then some '\r'
  else none

/-- Put a character before the text that was read after it. -/
def consTo (c : Option Char) (read : Option (Text × Text)) : Option (Text × Text) := do
  let c ← c
  let (text, rest) ← read
  return (c :: text, rest)

/-- A basic string after its opening quote, and what follows it. -/
def readBasic : Text → Option (Text × Text)
  | '"' :: rest => some ([], rest)
  | '\\' :: 'u' :: a :: b :: c :: d :: rest => consTo (scalar? [a, b, c, d]) (readBasic rest)
  | '\\' :: 'U' :: a :: b :: c :: d :: e :: f :: g :: h :: rest =>
    consTo (scalar? [a, b, c, d, e, f, g, h]) (readBasic rest)
  | '\\' :: c :: rest => consTo (escape? c) (readBasic rest)
  | c :: rest => if isPlain c && c != '\\' then consTo (some c) (readBasic rest) else none
  | [] => none

/-- A literal string after its opening quote, and what follows it. -/
def readLiteral : Text → Option (Text × Text)
  | '\'' :: rest => some ([], rest)
  | c :: rest => if isPlain c then consTo (some c) (readLiteral rest) else none
  | [] => none

/-- How many quotes end a string over several lines: the last three close it, and up to two more
belong to it. -/
def closing? (quote : Char) (t : Text) : Option (Text × Text) :=
  let count := (t.takeWhile (· == quote)).length
  if count < 3 then none
  else
    let own := min (count - 3) 2
    some (List.replicate own quote, t.drop (own + 3))

/-- A basic string over several lines after its opening quotes, and what follows it. When `folding`,
white space and line breaks are skipped, as after a backslash at the end of a line. -/
def readLongBasic (folding : Bool) : Text → Option (Text × Text)
  | [] => none
  | '\r' :: '\n' :: rest =>
    if folding then readLongBasic true rest else consTo (some '\n') (readLongBasic false rest)
  | '\\' :: 'u' :: a :: b :: c :: d :: rest =>
    consTo (scalar? [a, b, c, d]) (readLongBasic false rest)
  | '\\' :: 'U' :: a :: b :: c :: d :: e :: f :: g :: h :: rest =>
    consTo (scalar? [a, b, c, d, e, f, g, h]) (readLongBasic false rest)
  | '\\' :: c :: rest =>
    if (dropLineBreak? (skipSpaces (c :: rest))).isSome then readLongBasic true (c :: rest)
    else consTo (escape? c) (readLongBasic false rest)
  | c :: rest =>
    if folding && (isSpace c || c == '\n') then readLongBasic true rest
    else if c = '"' then
      match closing? '"' (c :: rest) with
      | some result => some result
      | none => consTo (some c) (readLongBasic false rest)
    else if (isPlain c && c != '\\') || c == '\n' then consTo (some c) (readLongBasic false rest)
    else none

/-- A literal string over several lines after its opening quotes, and what follows it. -/
def readLongLiteral : Text → Option (Text × Text)
  | [] => none
  | '\r' :: '\n' :: rest => consTo (some '\n') (readLongLiteral rest)
  | c :: rest =>
    if c = '\'' then
      match closing? '\'' (c :: rest) with
      | some result => some result
      | none => consTo (some c) (readLongLiteral rest)
    else if isPlain c || c == '\n' then consTo (some c) (readLongLiteral rest)
    else none

/-- The text without a line break right after the opening quotes. -/
def dropFirstBreak (t : Text) : Text :=
  (dropLineBreak? t).getD t

/-- The string that a text starts with, and what follows it. -/
def read? : Text → Option (Text × Text)
  | '"' :: '"' :: '"' :: rest => readLongBasic false (dropFirstBreak rest)
  | '\'' :: '\'' :: '\'' :: rest => readLongLiteral (dropFirstBreak rest)
  | '"' :: rest => readBasic rest
  | '\'' :: rest => readLiteral rest
  | _ => none

/-- The string on one line that a text starts with, and what follows it. -/
def readLine? : Text → Option (Text × Text)
  | '"' :: rest => readBasic rest
  | '\'' :: rest => readLiteral rest
  | _ => none

end DocAudit.Toml.Quoted
