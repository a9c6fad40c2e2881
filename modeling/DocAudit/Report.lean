import DocAudit.Diagnostic
import DocAudit.Report.Json

/-!
How the outcome of a check and of a look-up is shown: as plain text or as JSON.
-/

set_option autoImplicit false

namespace DocAudit

/-- The forms of output. -/
inductive OutputFormat where
  | text
  /-- JSON over several lines. -/
  | json
  /-- JSON on one line. -/
  | compact
deriving DecidableEq

/-- The outcome of checking a project. -/
structure Report where
  filesChecked : Nat
  diagnostics : List Diagnostic
  /-- Why files could not be read. -/
  failures : List Text
  milliseconds : Nat
deriving DecidableEq

namespace Diagnostic

/-- A violation as one line of text. -/
def render (d : Diagnostic) : Text :=
  d.path ++ ":" ++ Text.ofNat d.line ++ ": [" ++ d.kind.name ++ "] " ++ d.message

/-- A violation as a JSON object. -/
def toJson (d : Diagnostic) : Json :=
  .object [("path", .string d.path), ("line", .number d.line), ("kind", .string d.kind.name),
    ("message", .string d.message), ("declaration", .string d.declaration)]

end Diagnostic

namespace Report

/-- The last line of a report. -/
def summary (r : Report) : Text :=
  "Checked " ++ Text.ofNat r.filesChecked ++ " files: " ++ Text.ofNat r.diagnostics.length ++
    " diagnostics (" ++ Text.ofNat r.milliseconds ++ "ms)"

/-- A report as a JSON object. -/
def toJson (r : Report) : Json :=
  .object [("files_checked", .number r.filesChecked),
    ("diagnostics", .array (r.diagnostics.map Diagnostic.toJson)),
    ("parse_errors", .array (r.failures.map .string)),
    ("duration_ms", .number r.milliseconds)]

/-- A report in one of the forms of output: in text, a line for each violation and the summary. -/
def render (r : Report) : OutputFormat → Text
  | .text => (r.diagnostics.flatMap fun d => d.render ++ ['\n']) ++ r.summary
  | .json => r.toJson.render .indented
  | .compact => r.toJson.render .compact

end Report

/-- The outcome of looking up a type name. -/
structure Lookup where
  name : Text
  found : Option JavaType

namespace Lookup

/-- A text, or null where there is none. -/
def optional : Option Text → Json
  | some t => .string t
  | none => .null

/-- A look-up as a JSON object. -/
def toJson (l : Lookup) : Json :=
  .object [("name", .string l.name), ("binary_name", optional (l.found.map (·.element))),
    ("canonical_name", optional (l.found.map (·.canonicalName)))]

/-- A look-up in one of the forms of output. -/
def render (l : Lookup) : OutputFormat → Text
  | .text =>
    match l.found with
    | some ty => ty.binaryName
    | none => "not found"
  | .json => l.toJson.render .indented
  | .compact => l.toJson.render .compact

end Lookup

end DocAudit
