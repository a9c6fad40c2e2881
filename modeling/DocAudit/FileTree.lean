import DocAudit.Path

/-!
Trees of files and directories as values: the entries at their addresses, what changes them, and
which entry a path leads to.
-/

set_option autoImplicit false

namespace DocAudit

/-- A file with its bytes, or a directory with its named entries. -/
inductive FileTree where
  | file (content : ByteArray)
  | directory (entries : List (Text × FileTree))

namespace FileTree

/-- The names that lead from the root of a tree to an entry. -/
abbrev Address := List Text

/-- The address that a path from the root spells out. -/
def addressOf (path : Text) : Address :=
  (Path.segments path).filter fun segment => !Path.isEmptySegment segment

/-- A tree without files. -/
def empty : FileTree := .directory []

/-- The entries of a directory; a file has none. -/
def entries : FileTree → List (Text × FileTree)
  | .file _ => []
  | .directory entries => entries

/-- The entry of a name. -/
def child? (t : FileTree) (name : Text) : Option FileTree :=
  t.entries.lookup name

/-- The entry at an address. -/
def get? : FileTree → Address → Option FileTree
  | t, [] => some t
  | t, name :: rest => (t.child? name).bind (·.get? rest)

/-- The bytes of the file at an address. -/
def content? (t : FileTree) (address : Address) : Option ByteArray :=
  match t.get? address with
  | some (.file content) => some content
  | _ => none

/-- The text of the file at an address, if its bytes are UTF-8. -/
def text? (t : FileTree) (address : Address) : Option Text :=
  ((t.content? address).bind String.fromUTF8?).map String.toList

/-- The entries with this one in place of the one of its name, or at the end. -/
def withEntry (name : Text) (node : FileTree) : List (Text × FileTree) → List (Text × FileTree)
  | [] => [(name, node)]
  | (other, old) :: rest =>
    if other = name then (name, node) :: rest else (other, old) :: withEntry name node rest

/-- The tree with an entry at an address, and with the directories that lead to it. -/
def insert : FileTree → Address → FileTree → FileTree
  | _, [], node => node
  | t, name :: rest, node =>
    .directory (withEntry name (((t.child? name).getD empty).insert rest node) t.entries)

/-- The tree with a directory at an address, unless there is an entry. -/
def addDirectory (t : FileTree) (address : Address) : FileTree :=
  if (t.get? address).isSome then t else t.insert address empty

/-- The tree without the entry at an address. -/
def erase : FileTree → Address → FileTree
  | _, [] => empty
  | t, [name] => .directory (t.entries.filter fun entry => entry.1 != name)
  | t, name :: rest =>
    match t.child? name with
    | none => t
    | some node => .directory (withEntry name (node.erase rest) t.entries)

/-! ### Lines -/

/-- The byte of a line feed. -/
def lineFeed : UInt8 := 0x0a

/-- The byte of a carriage return. -/
def carriageReturn : UInt8 := 0x0d

/-- A line without a carriage return at its end. -/
def dropReturn (line : List UInt8) : List UInt8 :=
  if line.getLast? == some carriageReturn then line.dropLast else line

/-- The lines of a file, with `none` for those that are not UTF-8. A carriage return belongs to the
end of a line only where a line feed follows. -/
def lines (content : ByteArray) : List (Option Text) :=
  let pieces := content.toList.splitOn lineFeed
  let last := pieces.getLast?.toList.filter fun line => !line.isEmpty
  (pieces.dropLast.map dropReturn ++ last).map fun line =>
    (String.fromUTF8? ⟨line.toArray⟩).map String.toList

/-! ### Paths -/

/-- Where one segment of a path leads from an address. Only a directory leads anywhere, and nothing
lies above the root. -/
def step? (t : FileTree) (address : Address) (segment : Text) : Option Address :=
  match t.get? address with
  | some (.directory entries) =>
    if Path.isEmptySegment segment then some address
    else if segment = ".." then some address.dropLast
    else if (entries.lookup segment).isSome then some (address ++ [segment])
    else none
  | _ => none

/-- The address of the entry that a path leads to from a base directory. A path from the root of
all files leads out of the tree. -/
def locate? (t : FileTree) (base : Address) (path : Text) : Option Address :=
  if path.isEmpty || path.startsWith "/" then none
  else (Path.segments path).foldlM t.step? base

end FileTree

/-- A path as it is written, with the address of the entry that it leads to, if there is one. -/
structure Location where
  path : Text
  address : Option FileTree.Address

namespace Location

/-- The location of a path from a base directory. -/
def ofPath (t : FileTree) (base : FileTree.Address) (path : Text) : Location :=
  ⟨path, t.locate? base path⟩

/-- The path of an entry below a directory. -/
def pathBelow (l : Location) (names : FileTree.Address) : Text :=
  if names.isEmpty then l.path else Path.below l.path (Text.join "/" names)

end Location

end DocAudit
