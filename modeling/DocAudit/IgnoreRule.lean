import DocAudit.FileTree
import DocAudit.Glob

/-!
Rules for paths to be ignored, as the lines of an ignore file give them. Of all rules that apply to
a path the last one decides.
-/

set_option autoImplicit false

namespace DocAudit

/-- What becomes of a path. -/
inductive Ruling where
  | ignored
  | kept
deriving DecidableEq

/-- The other ruling. -/
def Ruling.opposite : Ruling → Ruling
  | ignored => kept
  | kept => ignored

/-- A ruling on all paths that match a glob. -/
structure IgnoreRule where
  glob : Glob
  ruling : Ruling
  directoriesOnly : Bool

namespace IgnoreRule

/-- A line without the white space at its end, unless a backslash keeps a space. -/
def trimLine (line : Text) : Text :=
  if line.endsWith "\\ " then line else line.trimRight

/-- The ruling of a line, whether it is anchored by a slash at its start, and its pattern. A
backslash before an exclamation mark or number sign makes it part of the pattern. -/
def readMarks (line : Text) : Ruling × Bool × Text :=
  match line with
  | '\\' :: '!' :: rest => (.ignored, false, '!' :: rest)
  | '\\' :: '#' :: rest => (.ignored, false, '#' :: rest)
  | '!' :: '/' :: rest => (.kept, true, rest)
  | '!' :: rest => (.kept, false, rest)
  | '/' :: rest => (.ignored, true, rest)
  | _ => (.ignored, false, line)

/-- Whether a slash at the end of a pattern asks for directories, and the pattern without it. -/
def readEnd (pattern : Text) : Bool × Text :=
  match pattern.reverse with
  | '/' :: '\\' :: rest => (true, rest.reverse)
  | '/' :: rest => (true, rest.reverse)
  | _ => (false, pattern)

/-- The glob of a pattern: without a slash it matches at any depth, and two stars at its end do not
match the directory itself. -/
def globPattern (isAnchored : Bool) (pattern : Text) : Text :=
  let atDepth : Text :=
    if isAnchored || pattern.contains '/' || pattern = "**" then pattern else "**/" ++ pattern
  if atDepth.endsWith "/**" then atDepth ++ "/*" else atDepth

/-- The rule of a line, with its glob read by `readGlob`. Blank lines and comments give none. -/
def read? (readGlob : Text → Except Glob.Fault Glob) (line : Text) :
    Except Glob.Fault (Option IgnoreRule) := do
  if line.startsWith "#" then return none
  let line := trimLine line
  if line.isEmpty then return none
  let (ruling, isAnchored, marked) := readMarks line
  let (directoriesOnly, pattern) := readEnd marked
  let glob ← readGlob (globPattern isAnchored pattern)
  return some { glob, ruling, directoriesOnly }

/-- Whether a rule applies to a path. -/
def applies (r : IgnoreRule) (path : Text) (isDirectory : Bool) : Bool :=
  (isDirectory || !r.directoriesOnly) && r.glob.isMatch false path

/-- The ruling of the last rule that applies to a path. -/
def decide? (rules : List IgnoreRule) (path : Text) (isDirectory : Bool) : Option Ruling :=
  (rules.reverse.find? (·.applies path isDirectory)).map (·.ruling)

end IgnoreRule

/-- The rules of an ignore file, and whether every line of it could be read. -/
structure IgnoreFile where
  rules : List IgnoreRule := []
  isSound : Bool := true

namespace IgnoreFile

/-- The lines of a file up to the first that is not UTF-8, without the mark of the byte order at
the start. -/
def readableLines (content : ByteArray) : List Text :=
  match ((FileTree.lines content).takeWhile Option.isSome).filterMap id with
  | [] => []
  | first :: rest => first.dropWhile (· == '\ufeff') :: rest

/-- The file with the rule of one more line. A line that is no glob gives none. -/
def addLine (file : IgnoreFile) (line : Text) : IgnoreFile :=
  match IgnoreRule.read? Glob.readLenient line with
  | .ok rule => { file with rules := file.rules ++ rule.toList }
  | .error _ => { file with isSound := false }

/-- The rules that the bytes of a file hold. -/
def ofContent (content : ByteArray) : IgnoreFile :=
  (readableLines content).foldl addLine {}

end IgnoreFile

end DocAudit
