import DocAudit.IgnoreRule

/-!
The ignore files of one directory. A directory with a `.git` or `.jj` entry is the root of a
repository; where `.git` is a file, its first line leads to the directory with the files that all
working trees of the repository share.
-/

set_option autoImplicit false

namespace DocAudit

/-- The ignore files of a directory, and whether it is the root of a repository. -/
structure IgnoreLayer where
  /-- The number of names in the address of the directory. -/
  depth : Nat
  always : IgnoreFile
  versioned : IgnoreFile
  unshared : IgnoreFile
  isRepository : Bool

namespace IgnoreLayer

/-- An entry that can be opened and whose first line cannot be read. -/
inductive UnreadableLine where
  | unreadableLine
deriving DecidableEq

/-- The first line of what a path leads to, if that is a file with a line. -/
def firstLine : Option FileTree → Except UnreadableLine (Option Text)
  | none => .ok none
  | some (.directory _) => .error .unreadableLine
  | some (.file content) =>
    match FileTree.lines content with
    | [] => .ok none
    | none :: _ => .error .unreadableLine
    | some line :: _ => .ok (some line)

/-- What stands before the path in the file that marks a working tree. -/
def markStart : Text := "gitdir: "

/-- The path of the directory that the working trees of a repository share, by the file that marks
one of them. `reach` gives what a path leads to. -/
def sharedDirectory (reach : Text → Option FileTree) (mark : FileTree) :
    Except UnreadableLine (Option Text) := do
  let some line ← firstLine (some mark) | return none
  if !line.startsWith markStart then return none
  let own := line.drop markStart.length
  let some shared ← firstLine (reach (Path.below own "commondir")) | return none
  return some (if shared.startsWith "." then Path.below own shared else shared)

/-- The ignore file at an address below a directory. -/
def file (directory : FileTree) (address : FileTree.Address) : IgnoreFile :=
  ((directory.content? address).map IgnoreFile.ofContent).getD {}

/-- The ignore file of a repository that is not shared with others. -/
def unsharedFile (reach : Text → Option FileTree) (directory : FileTree) : IgnoreFile :=
  match directory.child? ".git" with
  | some (.file content) =>
    match sharedDirectory reach (.file content) with
    | .error _ => { isSound := false }
    | .ok none => {}
    | .ok (some path) =>
      ((reach (Path.below path "info/exclude")).map fun node => file node []).getD {}
  | _ => file directory [".git", "info", "exclude"]

/-- The ignore files of a directory. -/
def ofDirectory (reach : Text → Option FileTree) (depth : Nat) (directory : FileTree) :
    IgnoreLayer where
  depth := depth
  always := file directory [".ignore"]
  versioned := file directory [".gitignore"]
  unshared := unsharedFile reach directory
  isRepository := (directory.child? ".git").isSome || (directory.child? ".jj").isSome

/-- Whether every line of the ignore files could be read. -/
def isSound (layer : IgnoreLayer) : Bool :=
  layer.always.isSound && layer.versioned.isSound && layer.unshared.isSound

/-- The ruling of one of the ignore files of a directory on an entry below it. -/
def decide? (layer : IgnoreLayer) (file : IgnoreLayer → IgnoreFile) (address : FileTree.Address)
    (isDirectory : Bool) : Option Ruling :=
  IgnoreRule.decide? (file layer).rules (Text.join "/" (address.drop layer.depth)) isDirectory

/-- The layers up to the nearest repository; none outside of a repository. -/
def inRepository : List IgnoreLayer → List IgnoreLayer
  | [] => []
  | layer :: outer =>
    if layer.isRepository then [layer]
    else
      match inRepository outer with
      | [] => []
      | reached => layer :: reached

/-- The ruling of all ignore files on an entry, given from the nearest directory outwards. Those of
a repository count only inside it. -/
def ruling? (layers : List IgnoreLayer) (address : FileTree.Address) (isDirectory : Bool) :
    Option Ruling :=
  let reached := inRepository layers
  ((layers.findSome? fun layer => layer.decide? always address isDirectory).or
    (reached.findSome? fun layer => layer.decide? versioned address isDirectory)).or
      (reached.findSome? fun layer => layer.decide? unshared address isDirectory)

end IgnoreLayer

end DocAudit
