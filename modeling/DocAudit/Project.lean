import DocAudit.Configuration
import DocAudit.Discovery
import DocAudit.Java.Outline
import DocAudit.Report

/-!
A project in a tree of files: its configuration, its parsed sources, the report on all of them, and
the types that names in its sources stand for.
-/

set_option autoImplicit false

namespace DocAudit

/-- A source file and what it declares. -/
structure SourceFile where
  /-- The path below the directory of the project. -/
  path : Text
  unit : CompilationUnit

/-- The sources of a project. -/
structure Project where
  sources : List SourceFile
  /-- Why other sources could not be read. -/
  failures : List Text

namespace Project

/-- Why a project cannot be looked at. -/
inductive Failure where
  | missingConfiguration (path : Text)
  | unreadableConfiguration (path : Text)
  | badConfiguration (path : Text)
  | badOverride (bad : FileSettings.BadPaths)
  | discovery (fault : Selection.Fault)
  | unreadableSource (path : Text)
deriving DecidableEq

/-- A failure in words. -/
def Failure.message : Failure → Text
  | missingConfiguration path => "config file not found: " ++ path
  | unreadableConfiguration path => "Failed to read " ++ path
  | badConfiguration path => "Failed to parse " ++ path
  | badOverride bad => bad.message
  | discovery .badExclude => "invalid exclude pattern"
  | discovery .badInclude => "invalid include pattern"
  | discovery .unreadableDirectory => "error reading directory entry"
  | unreadableSource path => "failed to read " ++ path

/-! ### Configuration -/

/-- Where a project may keep its configuration, best place first. -/
def configurationPlaces : List FileTree.Address :=
  [[".doclint", "config.toml"], ["doclint.toml"]]

/-- The place of the configuration that a project keeps. -/
def findConfiguration? (t : FileTree) (root : Location) : Option Location :=
  root.address.bind fun address =>
    (configurationPlaces.find? fun place => (t.get? (address ++ place)).isSome).map fun place =>
      ⟨root.pathBelow place, some (address ++ place)⟩

/-- The configuration in a file. -/
def readConfiguration (t : FileTree) (place : Location) : Except Failure Configuration :=
  match place.address with
  | none => .error (.missingConfiguration place.path)
  | some address =>
    match t.text? address with
    | none => .error (.unreadableConfiguration place.path)
    | some document =>
      match Configuration.read? document with
      | none => .error (.badConfiguration place.path)
      | some configuration => .ok configuration

/-- The configuration of a project: that of a given file, or the one that the project keeps, or
the default. -/
def configuration (t : FileTree) (root : Location) (given : Option Location) :
    Except Failure Configuration :=
  match given.or (findConfiguration? t root) with
  | some place => readConfiguration t place
  | none => .ok {}

/-! ### Sources -/

/-- What a source declares. -/
def readSource (t : FileTree) (file : Location) : Except Failure CompilationUnit :=
  match file.address.bind t.text? with
  | some text => .ok (Java.outline text)
  | none => .error (.unreadableSource file.path)

/-- The project with one more source, whose address below the root is given. -/
def addSource (t : FileTree) (root : Location) (project : Project) (below : FileTree.Address) :
    Project :=
  let file : Location := ⟨root.pathBelow below, root.address.map (· ++ below)⟩
  match readSource t file with
  | .ok unit => { project with sources := project.sources ++ [⟨Text.join "/" below, unit⟩] }
  | .error failure =>
    let reason : Text := failure.message ++ ": stream did not contain valid UTF-8"
    { project with failures := project.failures ++ [reason] }

/-- The sources of the project in a directory. A source that is not UTF-8 is passed over. The
working directory is given if it lies in the tree. -/
def load (t : FileTree) (working : Option FileTree.Address) (root : Location)
    (selection : Selection) : Except Failure Project := do
  let addresses ← (Discovery.sources t working root selection).mapError .discovery
  let depth := (root.address.getD []).length
  return addresses.foldl (fun project address => addSource t root project (address.drop depth))
    ⟨[], []⟩

/-- The types of a project. -/
def table (p : Project) : TypeTable :=
  TypeTable.ofUnits (p.sources.map (·.unit))

/-- The violations of all sources, with the settings of each. -/
def diagnostics (p : Project) (settings : Text → Settings) : List Diagnostic :=
  let table := p.table
  Diagnostic.sorted (p.sources.flatMap fun source =>
    source.unit.diagnostics source.path table (settings source.path))

/-! ### Reports and look-ups -/

/-- What is checked and how. -/
structure Options where
  selection : Selection := {}
  configuration : Option Location := none
  /-- Settings that win over the configuration. -/
  forced : SettingsPatch := {}

/-- The report on the project in a directory, made in some milliseconds. -/
def report (t : FileTree) (working : Option FileTree.Address) (root : Location)
    (options : Options) (milliseconds : Nat) : Except Failure Report := do
  let configuration ← configuration t root options.configuration
  let settings ← (FileSettings.ofConfiguration configuration options.forced).mapError .badOverride
  let project ← load t working root options.selection
  return {
    filesChecked := project.sources.length
    diagnostics := project.diagnostics settings.forPath
    failures := project.failures
    milliseconds := milliseconds }

/-- The type that a name stands for in a file, within the first type that the file declares. -/
def lookUp (t : FileTree) (working : Option FileTree.Address) (root : Location)
    (selection : Selection) (file : Location) (name : Text) : Except Failure Lookup := do
  let project ← load t working root selection
  let unit ← readSource t file
  let outermost : Text := (unit.types.head?.map (·.binaryName)).getD []
  return ⟨name, (Scope.ofUnit unit outermost).resolve? project.table name⟩

end Project

end DocAudit
