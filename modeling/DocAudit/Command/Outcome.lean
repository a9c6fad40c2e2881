import DocAudit.Command.Arguments
import DocAudit.Command.Help
import DocAudit.Project

/-!
The outcome of running the program in a tree of files: what it prints and its exit status.
-/

set_option autoImplicit false

namespace DocAudit

/-- Where the program runs. -/
structure Workplace where
  tree : FileTree
  /-- How the root of the tree is written at the start of a path. -/
  root : Text
  /-- The working directory. -/
  directory : FileTree.Address

namespace Workplace

/-- The location of a path. -/
def location (w : Workplace) (path : Text) : Location :=
  .ofPath w.tree w.directory path

/-- The full path of an address. -/
def fullPath (w : Workplace) (address : FileTree.Address) : Text :=
  if address.isEmpty && w.root.isEmpty then "/"
  else w.root ++ address.flatMap fun name => '/' :: name

/-- The location of a path, by its full path if it exists. -/
def fullLocation (w : Workplace) (path : Text) : Location :=
  match w.tree.locate? w.directory path with
  | some address => ⟨w.fullPath address, some address⟩
  | none => ⟨path, none⟩

end Workplace

/-- What a run of the program leaves behind. -/
structure Outcome where
  status : Nat
  output : Text
  complaints : Text

namespace Outcome

/-- The outcome of a run with a result. The status says whether the result is a good one. -/
def result (isGood : Bool) (output complaints : Text) : Outcome :=
  ⟨if isGood then 0 else 1, output ++ "\n", complaints⟩

/-- The outcome of a run that failed. -/
def failed (failure : Project.Failure) : Outcome :=
  ⟨1, [], "Error: " ++ failure.message ++ "\n"⟩

/-- The outcome of arguments that make no command. -/
def stopped : Command.Stop → Outcome
  | .help topic => .result true topic.text []
  | .version => .result true Command.version []
  | .misuse cause => ⟨2, [], "error: " ++ cause.message ++ "\n"⟩

/-- The complaints about sources that could not be read. -/
def complaintsOf (failures : List Text) : Text :=
  let lines : Text := failures.flatMap fun failure => "  " ++ failure ++ ['\n']
  if failures.isEmpty then [] else "Parse errors:\n" ++ lines

/-- The outcome of a command that takes some milliseconds. -/
def ofCommand (w : Workplace) (command : Command) (milliseconds : Nat) : Outcome :=
  match command.task with
  | .check path configuration forced =>
    let options : Project.Options :=
      ⟨command.selection, configuration.map w.location, forced⟩
    match Project.report w.tree w.directory (w.fullLocation path) options milliseconds with
    | .error failure => failed failure
    | .ok report =>
      result report.diagnostics.isEmpty (report.render command.format)
        (complaintsOf report.failures)
  | .resolve name file root =>
    match Project.lookUp w.tree w.directory (w.fullLocation root) command.selection
      (w.location file) name with
    | .error failure => failed failure
    | .ok lookup => result lookup.found.isSome (lookup.render command.format) []

/-- The outcome of running the program with some arguments. -/
def ofArguments (w : Workplace) (arguments : List Text) (milliseconds : Nat) : Outcome :=
  match Command.read arguments with
  | .ok command => ofCommand w command milliseconds
  | .error stop => stopped stop

end Outcome

end DocAudit
