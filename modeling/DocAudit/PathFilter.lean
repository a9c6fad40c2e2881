import DocAudit.Glob

/-!
Sets of paths given by globs: those that some pattern includes and none excludes.
-/

set_option autoImplicit false

namespace DocAudit

/-- Globs that include paths and globs that exclude paths. -/
structure PathFilter where
  included : List Glob := []
  excluded : List Glob := []

namespace PathFilter

/-- A pattern that is no glob. -/
structure BadPattern where
  pattern : Text
  fault : Glob.Fault
deriving DecidableEq

/-- A bad pattern in words. -/
def BadPattern.message (b : BadPattern) : Text :=
  "error parsing glob '" ++ b.pattern ++ "': " ++ b.fault.message

/-- The glob of a pattern. -/
def readGlob (pattern : Text) : Except BadPattern Glob :=
  (Glob.read pattern).mapError (⟨pattern, ·⟩)

/-- The filter of a list of patterns, of which those with an exclamation mark exclude. Their order
does not matter. -/
def ofPatterns : List Text → Except BadPattern PathFilter
  | [] => .ok {}
  | ('!' :: pattern) :: rest => do
    let glob ← readGlob pattern
    let filter ← ofPatterns rest
    return { filter with excluded := glob :: filter.excluded }
  | pattern :: rest => do
    let glob ← readGlob pattern
    let filter ← ofPatterns rest
    return { filter with included := glob :: filter.included }

/-- Whether a path is in the set. -/
def contains (f : PathFilter) (path : Text) : Bool :=
  f.included.any (·.isMatch true path) && !f.excluded.any (·.isMatch true path)

end PathFilter

end DocAudit
