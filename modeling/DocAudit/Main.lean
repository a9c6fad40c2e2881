import DocAudit.Command.Outcome

/-!
The command line. The files of the working directory that the program may look at are named on
standard input, one path a line; a path with a slash at its end names a directory.
-/

set_option autoImplicit false

open DocAudit

/-- The tree with the files that the rest of the input names. -/
partial def readTree (input : IO.FS.Stream) (tree : FileTree) : IO FileTree := do
  let line ← input.getLine
  if line.isEmpty then return tree
  let path : Text := line.toList.takeWhile fun c => c != '\n'
  let address := FileTree.addressOf path
  if path.endsWith "/" then readTree input (tree.addDirectory address)
  else
    let content ← IO.FS.readBinFile (String.ofList path)
    readTree input (tree.insert address (.file content))

/-- Print what a run of the program leaves behind. -/
def finish (outcome : Outcome) : IO UInt32 := do
  (← IO.getStdout).putStr (String.ofList outcome.output)
  (← IO.getStderr).putStr (String.ofList outcome.complaints)
  return UInt32.ofNat outcome.status

/-- Run the program. -/
def main (arguments : List String) : IO UInt32 := do
  let start ← IO.monoMsNow
  match Command.read (arguments.map String.toList) with
  | .error stop => finish (.stopped stop)
  | .ok command =>
    let tree ← readTree (← IO.getStdin) .empty
    let elapsed := (← IO.monoMsNow) - start
    finish (.ofCommand ⟨tree, ".", []⟩ command elapsed)
