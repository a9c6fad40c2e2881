import DocAudit.PathFilter
import DocAudit.Settings
import DocAudit.Text.Quoted
import DocAudit.Toml.Document

/-!
The configuration of a project: settings for all files, and changes to them for some. A later change
wins over an earlier one, setting by setting.
-/

set_option autoImplicit false

namespace DocAudit

/-- A change of settings for the files that some patterns select. -/
structure Override where
  paths : List Text
  patch : SettingsPatch
deriving DecidableEq

/-- The settings of a project. -/
structure Configuration where
  settings : Settings := {}
  overrides : List Override := []
deriving DecidableEq

namespace Configuration

open Toml (Value)

/-- A number that is not negative. -/
def number? : Value → Option Nat
  | .integer n => if 0 ≤ n then some n.toNat else none
  | _ => none

/-- A truth value. -/
def boolean? : Value → Option Bool
  | .boolean b => some b
  | _ => none

/-- A text. -/
def text? : Value → Option Text
  | .string t => some t
  | _ => none

/-- What a value stands for, if there is one; `none` if it has the wrong form. -/
def optional {α : Type} (v : Option Value) (read : Value → Option α) : Option (Option α) :=
  match v with
  | none => some none
  | some v => (read v).map some

/-- The value of a key. -/
def get? (entries : List (Text × Value)) (key : Text) : Option Value :=
  entries.lookup key

/-- Changes to settings. Keys that name no setting do not matter. -/
def patch? (entries : List (Text × Value)) : Option SettingsPatch := do
  let minimumLength ← optional (get? entries "minimum_comment_length") number?
  let checkReferences ← optional (get? entries "check_references") boolean?
  let requireOverride ← optional (get? entries "require_override_annotation") boolean?
  return { minimumLength, checkReferences, requireOverride }

/-- Changes to settings that are listed by position. -/
def patchOfItems? (items : List Value) : Option SettingsPatch := do
  let minimumLength ← optional items[0]? number?
  let checkReferences ← optional items[1]? boolean?
  let requireOverride ← optional items[2]? boolean?
  return { minimumLength, checkReferences, requireOverride }

/-- The settings of a project: a table by name, an array by position. A date has no setting. -/
def settings? : Value → Option Settings
  | .table entries => (patch? entries).map ({} : Settings).patched
  | .array items => (patchOfItems? items).map ({} : Settings).patched
  | .dateTime => some {}
  | _ => none

/-- The patterns that select files. -/
def paths? : Value → Option (List Text)
  | .array items => items.mapM text?
  | _ => none

/-- A change of settings for some files. -/
def override? : Value → Option Override
  | .table entries => do
    let paths ← (get? entries "paths").bind paths?
    return { paths, patch := ← patch? entries }
  | _ => none

/-- The changes of settings for some files. -/
def overrides? : Value → Option (List Override)
  | .array items => items.mapM override?
  | _ => none

/-- The configuration that a TOML document holds. Keys without a meaning do not matter. -/
def read? (document : Text) : Option Configuration := do
  let entries ← Toml.read? document
  let settings ← optional (get? entries "checker") settings?
  let overrides ← optional (get? entries "overrides") overrides?
  return { settings := settings.getD {}, overrides := overrides.getD [] }

end Configuration

/-- The settings of each file of a project. -/
structure FileSettings where
  base : Settings
  overrides : List (PathFilter × SettingsPatch)
  /-- What wins over all that is configured. -/
  forced : SettingsPatch

namespace FileSettings

/-- Patterns of which one is no glob. -/
structure BadPaths where
  paths : List Text
deriving DecidableEq

/-- Bad patterns in words. -/
def BadPaths.message (b : BadPaths) : Text :=
  "invalid override paths " ++ Text.quotedList b.paths

/-- The settings of each file under a configuration, or the patterns of the first override that
has a bad one. -/
def ofConfiguration (c : Configuration) (forced : SettingsPatch) :
    Except BadPaths FileSettings := do
  let overrides ← c.overrides.mapM fun o =>
    match PathFilter.ofPatterns o.paths with
    | .ok filter => .ok (filter, o.patch)
    | .error _ => .error (BadPaths.mk o.paths)
  return { base := c.settings, overrides, forced }

/-- The settings of one file. -/
def forPath (s : FileSettings) (path : Text) : Settings :=
  (s.overrides.foldl
    (fun settings (filter, patch) =>
      if filter.contains path then settings.patched patch else settings)
    s.base).patched s.forced

end FileSettings

end DocAudit
