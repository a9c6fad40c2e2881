import DocAudit.IgnoreLayer

/-!
The source files of a project: those below its directory that the wanted patterns select and no
ignore file hides.
-/

set_option autoImplicit false

namespace DocAudit

/-- Patterns for the files that are wanted. -/
structure Selection where
  included : List Text := []
  excluded : List Text := []

namespace Selection

/-- Why the files of a project cannot be found. -/
inductive Fault where
  | badExclude
  | badInclude
  /-- A directory is missing, or an ignore file above it has a line that is no pattern. -/
  | unreadableDirectory
deriving DecidableEq

/-- Directories of build products and editors, which hold no sources. -/
def skippedDirectories : List String :=
  ["target/", "build/", ".gradle/", ".idea/", "out/"]

/-- What a pattern selects: as in an ignore file, but what a line would ignore is wanted. -/
def rule? (fault : Fault) (line : Text) : Except Fault (Option IgnoreRule) :=
  match IgnoreRule.read? Glob.read line with
  | .ok rule => .ok (rule.map fun r => { r with ruling := r.ruling.opposite })
  | .error _ => .error fault

/-- The rules of a selection. What is included wins over what is excluded. -/
def rules (s : Selection) : Except Fault (List IgnoreRule) := do
  let skipped ← skippedDirectories.mapM fun (name : String) =>
    rule? .badExclude ('!' :: name.toList)
  let excluded ← s.excluded.mapM fun pattern => rule? .badExclude ('!' :: pattern)
  let included ← s.included.mapM (rule? .badInclude)
  return (skipped ++ excluded ++ included).filterMap id

/-- The ruling of a selection. Once something is included, all other files are ignored. -/
def decide? (rules : List IgnoreRule) (path : Text) (isDirectory : Bool) : Option Ruling :=
  match IgnoreRule.decide? rules path isDirectory with
  | some ruling => some ruling
  | none =>
    if rules.any (·.ruling == .kept) && !isDirectory then some .ignored else none

end Selection

namespace Discovery

/-- Whether a file name is that of a Java source. -/
def isSource (name : Text) : Bool :=
  match Text.cutLast? (· == '.') name with
  | some (stem, ending) => !stem.isEmpty && ending = "java"
  | none => false

/-- Whether an entry below the project's directory, whose address has `depth` names, is left out.
The selection wins over the ignore files. -/
def isHidden (rules : List IgnoreRule) (depth : Nat) (layers : List IgnoreLayer)
    (address : FileTree.Address) (isDirectory : Bool) : Bool :=
  let selected := Selection.decide? rules (Text.join "/" (address.drop depth)) isDirectory
  selected.or (IgnoreLayer.ruling? layers address isDirectory) == some .ignored

/-- Whether an entry is a directory. -/
def isDirectory : FileTree → Bool
  | .file _ => false
  | .directory _ => true

mutual

/-- The files at or below an entry that are not left out. A hidden directory is not entered.
`reach` gives what a path leads to. -/
def walk (reach : Text → Option FileTree) (rules : List IgnoreRule) (depth : Nat)
    (layers : List IgnoreLayer) (address : FileTree.Address) : FileTree → List FileTree.Address
  | .file _ => [address]
  | .directory entries =>
    walkEntries reach rules depth
      (.ofDirectory reach address.length (.directory entries) :: layers) address entries

/-- The files at or below the entries of a directory that are not left out. -/
def walkEntries (reach : Text → Option FileTree) (rules : List IgnoreRule) (depth : Nat)
    (layers : List IgnoreLayer) (address : FileTree.Address) :
    List (Text × FileTree) → List FileTree.Address
  | [] => []
  | (name, node) :: rest =>
    let here := address ++ [name]
    (if isHidden rules depth layers here (isDirectory node) then []
      else walk reach rules depth layers here node) ++
      walkEntries reach rules depth layers address rest

end

/-- The ignore files above an entry, from the nearest directory outwards. -/
def layersAbove (t : FileTree) (reach : Text → Option FileTree) (address : FileTree.Address) :
    List IgnoreLayer :=
  ((List.range address.length).filterMap fun depth =>
    (t.get? (address.take depth)).map (IgnoreLayer.ofDirectory reach depth)).reverse

/-- Whether a file is a Java source. -/
def isSourceFile (address : FileTree.Address) : Bool :=
  address.getLast?.any isSource

/-- The sources at or below an entry, in the order of their addresses. The selection is read before
the entry is looked at, and the standard input holds no sources. Paths in ignore files start from
the working directory, if that lies in the tree. -/
def sources (t : FileTree) (working : Option FileTree.Address) (root : Location)
    (selection : Selection) : Except Selection.Fault (List FileTree.Address) := do
  let rules ← selection.rules
  let reach := fun path => (working.bind fun base => t.locate? base path).bind t.get?
  if Path.isStandardInput root.path then return []
  match root.address.bind fun address => (t.get? address).map (address, ·) with
  | none => .error .unreadableDirectory
  | some (address, node) =>
    let layers := if isDirectory node then layersAbove t reach address else []
    if layers.all (·.isSound) then
      let files := walk reach rules address.length layers address node
      .ok ((files.filter isSourceFile).mergeSort fun a b => !decide (b < a))
    else .error .unreadableDirectory

end Discovery

end DocAudit
