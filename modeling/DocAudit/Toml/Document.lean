import DocAudit.Toml.Scalar
import DocAudit.Toml.Table

/-!
TOML documents: keys, values, and lines with headers and entries.
-/

set_option autoImplicit false

namespace DocAudit.Toml

/-- Whether a character may stand in a key without quotes. -/
def isBareKeyChar (c : Char) : Bool :=
  c.isAlphanum || c == '_' || c == '-'

/-- The key without dots that a text starts with, and what follows it. -/
def readSimpleKey (t : Text) : Option (Text × Text) :=
  match t with
  | '"' :: _ | '\'' :: _ => Quoted.readLine? t
  | _ =>
    let key := t.takeWhile isBareKeyChar
    if key.isEmpty then none else some (key, t.dropWhile isBareKeyChar)

/-- The dotted key of at most `limit` keys that a text starts with, and what follows it. Spaces may
stand around each key. -/
def readKey : Nat → Text → Option (List Text × Text)
  | 0, _ => none
  | limit + 1, t => do
    let (key, rest) ← readSimpleKey (skipSpaces t)
    match skipSpaces rest with
    | '.' :: rest =>
      let (keys, rest) ← readKey limit rest
      return (key :: keys, rest)
    | rest => return ([key], rest)

/-- The text after spaces, line breaks and comments. -/
def skipLines (inComment : Bool) : Text → Text
  | [] => []
  | '\r' :: '\n' :: rest => skipLines false rest
  | c :: rest =>
    if c = '\n' then skipLines false rest
    else if inComment then if isPlain c then skipLines true rest else c :: rest
    else if isSpace c then skipLines false rest
    else if c = '#' then skipLines true rest
    else c :: rest

mutual

/-- The value that a text starts with, and what follows it. Below `depth` many arrays and inline
tables may stand around it. -/
def readValue (depth : Nat) (t : Text) : Option (Value × Text) :=
  match depth, t with
  | depth + 1, '[' :: rest => do
    let (items, rest) ← readItems depth (skipLines false rest)
    return (.array items, rest)
  | depth + 1, '{' :: rest => do
    let (entries, rest) ←
      match skipSpaces rest with
      | '}' :: rest => some ([], rest)
      | rest => readEntries depth [] rest
    return (.table (Entries.toValues entries), rest)
  | _, '"' :: _ | _, '\'' :: _ => do
    let (text, rest) ← Quoted.read? t
    return (.string text, rest)
  | _, _ => Scalar.read? t
termination_by (depth, t.length + 1)

/-- The items of an array from one of them on, and what follows the closing bracket. -/
def readItems (depth : Nat) (t : Text) : Option (List Value × Text) :=
  if t.head? = some ']' then some ([], t.tail)
  else do
    let (item, rest) ← readValue depth t
    match skipLines false rest with
    | ']' :: rest => return ([item], rest)
    | ',' :: rest =>
      if _ : (skipLines false rest).length < t.length then
        let (items, rest) ← readItems depth (skipLines false rest)
        return (item :: items, rest)
      else none
    | _ => none
termination_by (depth, t.length + 2)

/-- The entries of an inline table from one of them on, added to those before it, and what follows
the closing brace. -/
def readEntries (depth : Nat) (entries : Entries) (t : Text) : Option (Entries × Text) := do
  let (keys, rest) ← readKey (depthLimit - 1) t
  match rest with
  | '=' :: rest =>
    if _ : (skipSpaces rest).length < t.length then
      let (v, rest) ← readValue depth (skipSpaces rest)
      let key ← keys.getLast?
      let entries ← entries.add keys.dropLast key v .header
      match skipSpaces rest with
      | '}' :: rest => return (entries, rest)
      | ',' :: rest =>
        if _ : rest.length < t.length then readEntries depth entries rest else none
      | _ => none
    else none
  | _ => none
termination_by (depth, t.length + 2)

end

/-- What follows the line break, after spaces and a comment, that has to end a line. -/
def endLine? (t : Text) : Option Text :=
  let rest :=
    match skipSpaces t with
    | '#' :: comment => comment.dropWhile isPlain
    | rest => rest
  if rest.isEmpty then some [] else dropLineBreak? rest

/-- An entry of the table under `header`, added to a document, and what follows it. -/
def readEntry (document : Entries) (header : List Text) (t : Text) : Option (Entries × Text) := do
  let (keys, rest) ← readKey (depthLimit - 1) t
  let '=' :: rest := rest | none
  let (v, rest) ← readValue (depthLimit - 1) (skipSpaces rest)
  let key ← keys.getLast?
  let document ← Entries.update false (fun origin inner => inner.add keys.dropLast key v origin)
    header .header document
  return (document, rest)

/-- A header after its opening brackets, opened in a document, with its path and what follows the
closing brackets. -/
def readHeader (isElement : Bool) (document : Entries) (t : Text) :
    Option (Entries × List Text × Text) := do
  let (keys, rest) ← readKey (depthLimit - 1) t
  let key ← keys.getLast?
  if isElement then
    let ']' :: ']' :: rest := rest | none
    return (← document.openElement keys.dropLast key, keys, rest)
  else
    let ']' :: rest := rest | none
    return (← document.openTable keys.dropLast key, keys, rest)

/-- The document with the lines of a text, which stand under `header`. -/
def readLines (document : Entries) (header : List Text) (t : Text) : Option Entries := do
  let start := skipSpaces t
  let (document, header, rest) ←
    match start with
    | [] => return document
    | '[' :: '[' :: rest => readHeader true document rest
    | '[' :: rest => readHeader false document rest
    | '#' :: _ | '\n' :: _ | '\r' :: _ => some (document, header, start)
    | _ => (readEntry document header start).map fun (document, rest) => (document, header, rest)
  let rest ← endLine? rest
  if _ : rest.length < t.length then readLines document header rest else none
termination_by t.length

/-- The table that a TOML document stands for. A byte order mark may stand before it. -/
def read? (t : Text) : Option (List (Text × Value)) :=
  let t : Text :=
    match t with
    | '\ufeff' :: rest => rest
    | t => t
  (readLines [] [] t).map Entries.toValues

end DocAudit.Toml
