import DocAudit.Toml.Value

/-!
TOML tables while a document is read. How a table came to be decides what may still be added: a
header opens a table once, and a dotted key adds only to tables that dotted keys made.
-/

set_option autoImplicit false

namespace DocAudit.Toml

/-- How a table came to be. -/
inductive Origin where
  /-- By its own header. -/
  | header
  /-- On the way to another header. -/
  | implied
  /-- By a dotted key. -/
  | dotted
deriving DecidableEq

/-- What a key stands for while a document is read. -/
inductive Node where
  | value (v : Value)
  | table (origin : Origin) (entries : List (Text × Node))
  /-- An array of tables by headers, the last one first. -/
  | tables (elements : List (List (Text × Node)))

/-- The entries of a table while a document is read. -/
abbrev Entries := List (Text × Node)

namespace Entries

/-- The entries with `node` in the place of what `key` stood for, or added at the end. -/
def put (entries : Entries) (key : Text) (node : Node) : Entries :=
  if (entries.lookup key).isSome then
    entries.map fun e => if e.1 = key then (key, node) else e
  else entries ++ [(key, node)]

/-- Change the table at the end of a path. Tables that are missing on the way are added; `dotted`
says whether the path is a dotted key. -/
def update (dotted : Bool) (change : Origin → Entries → Option Entries) :
    List Text → Origin → Entries → Option Entries
  | [], origin, entries => change origin entries
  | key :: path, _, entries =>
    match entries.lookup key with
    | none => do
      let origin := if dotted then .dotted else .implied
      let inner ← update dotted change path origin []
      return entries.put key (.table origin inner)
    | some (.table origin inner) =>
      if dotted && origin = .header then none
      else do
        let inner ← update dotted change path origin inner
        return entries.put key (.table origin inner)
    | some (.tables (last :: earlier)) => do
      let last ← update dotted change path .header last
      return entries.put key (.tables (last :: earlier))
    | some _ => none

/-- Add a value under a dotted key. -/
def add (path : List Text) (key : Text) (v : Value) (origin : Origin) (entries : Entries) :
    Option Entries :=
  update true (fun origin inner =>
    if (origin == .dotted) == path.isEmpty || (inner.lookup key).isSome then none
    else some (inner ++ [(key, .value v)])) path origin entries

/-- Open the table of a header. -/
def openTable (path : List Text) (key : Text) (entries : Entries) : Option Entries :=
  update false (fun _ inner =>
    match inner.lookup key with
    | none => some (inner.put key (.table .header []))
    | some (.table .implied known) => some (inner.put key (.table .header known))
    | some _ => none) path .header entries

/-- Open a new element of an array of tables. -/
def openElement (path : List Text) (key : Text) (entries : Entries) : Option Entries :=
  update false (fun _ inner =>
    match inner.lookup key with
    | none => some (inner.put key (.tables [[]]))
    | some (.tables elements) => some (inner.put key (.tables ([] :: elements)))
    | some _ => none) path .header entries

end Entries

mutual

/-- What a key stands for once the document is read. -/
def Node.toValue : Node → Value
  | .value v => v
  | .table _ entries => .table (Entries.toValues entries)
  | .tables elements => .array (Entries.toTables elements).reverse

/-- The entries of a table once the document is read. -/
def Entries.toValues : List (Text × Node) → List (Text × Value)
  | [] => []
  | e :: rest => Entries.toEntry e :: Entries.toValues rest

/-- An entry of a table once the document is read. -/
def Entries.toEntry : Text × Node → Text × Value
  | (key, node) => (key, node.toValue)

/-- The tables of an array once the document is read. -/
def Entries.toTables : List (List (Text × Node)) → List Value
  | [] => []
  | entries :: rest => .table (Entries.toValues entries) :: Entries.toTables rest

end

end DocAudit.Toml
