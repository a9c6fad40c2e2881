import DocAudit.Discovery
import DocAudit.Report
import DocAudit.Settings

/-!
What the program can be asked for, the options it takes, and why it may decline.
-/

set_option autoImplicit false

namespace DocAudit

/-- What the program is asked to do. -/
inductive Task where
  /-- Check the project at a path, with a configuration file and settings that win over it. -/
  | check (path : Text) (configuration : Option Text) (forced : SettingsPatch)
  /-- Look up a name in a file of the project at a path. -/
  | resolve (name file root : Text)

/-- A task, the form of its output and the files it is about. -/
structure Command where
  task : Task
  format : OutputFormat
  selection : Selection

namespace Command

/-- What the help can be about. -/
inductive Topic where
  | program
  | check
  | resolve
  | help
deriving DecidableEq

/-- The options of the program and its tasks. -/
inductive Flag where
  | format
  | included
  | excluded
  | configuration
  | minimumLength
  | skipReferences
  | requireOverride
  | file
  | root
deriving DecidableEq

/-- The name of an option, after its two dashes. -/
def Flag.name : Flag → Text
  | format => "format"
  | included => "include"
  | excluded => "exclude"
  | configuration => "config"
  | minimumLength => "min-length"
  | skipReferences => "no-check-references"
  | requireOverride => "require-override"
  | file => "file"
  | root => "root"

/-- Whether an option is followed by a value. -/
def Flag.takesValue : Flag → Bool
  | skipReferences | requireOverride => false
  | _ => true

/-- Whether an option may be given more than once. -/
def Flag.isRepeatable : Flag → Bool
  | included | excluded => true
  | _ => false

/-- The options that may stand before a task or after it. -/
def commonFlags : List Flag :=
  [.format, .included, .excluded]

/-- The options after a task, or before it in the case of the program. -/
def Topic.flags : Topic → List Flag
  | program => commonFlags
  | check => commonFlags ++ [.configuration, .minimumLength, .skipReferences, .requireOverride]
  | resolve => commonFlags ++ [.file, .root]
  | help => []

/-- What is wrong with a list of arguments. -/
inductive Misuse where
  | missingTask
  | unexpected (argument : Text)
  | missingValue (flag : Flag)
  | needlessValue (flag : Flag)
  | badValue (flag : Flag) (value : Text)
  | repeated (flag : Flag)
  | missingFlag (flag : Flag)
  | missingName
deriving DecidableEq

/-- A misuse in words. -/
def Misuse.message : Misuse → Text
  | missingTask => "a subcommand is required but one was not provided"
  | unexpected argument => "unexpected argument '" ++ argument ++ "' found"
  | missingValue flag => "a value is required for '--" ++ flag.name ++ "' but none was supplied"
  | needlessValue flag => "unexpected value for '--" ++ flag.name ++ "' found"
  | badValue flag value => "invalid value '" ++ value ++ "' for '--" ++ flag.name ++ "'"
  | repeated flag => "the argument '--" ++ flag.name ++ "' cannot be used multiple times"
  | missingFlag flag => "the required argument '--" ++ flag.name ++ "' was not provided"
  | missingName => "the required argument '<NAME>' was not provided"

/-- Why arguments make no command. -/
inductive Stop where
  | help (topic : Topic)
  | version
  | misuse (cause : Misuse)
deriving DecidableEq

end Command

end DocAudit
