import DocAudit.Command

/-!
What the program says about itself, its tasks and their options.
-/

set_option autoImplicit false

namespace DocAudit.Command

/-- The name of the program and its version. -/
def version : Text :=
  "doclint 0.1.0"

/-- The lines on an option, with its explanation in a column. -/
def optionLines (width : Nat) (entries : List (String × String)) : List String :=
  entries.map fun (option, explanation) =>
    "  " ++ option.pushn ' ' (width - option.length) ++ "  " ++ explanation

/-- The option that shows the help. -/
def helpOption : String × String :=
  ("-h, --help", "Print help")

/-- The option for the form of output. -/
def formatOption : String × String :=
  ("    --format <FORMAT>",
    "Output format [default: text] [possible values: text, json, compact]")

/-- The option for included files. -/
def includeOption : String × String :=
  ("    --include <INCLUDE>", "Include only files matching this glob")

/-- The option for excluded files. -/
def excludeOption : String × String :=
  ("    --exclude <EXCLUDE>", "Exclude files matching this glob")

/-- The lines of the help on the program. -/
def programHelp : List String :=
  ["Javadoc comment checker for Java sources", "",
    "Usage: doclint [OPTIONS] <COMMAND>", "", "Commands:"] ++
  optionLines 7
    [("check", "Check the doc comments of every Java file in a project"),
      ("resolve", "Resolve a type name as it would be seen from inside a source file"),
      ("help", "Print this message or the help of the given subcommand(s)")] ++
  ["", "Options:"] ++
  optionLines 23
    [formatOption, includeOption, excludeOption, helpOption, ("-V, --version", "Print version")]

/-- The lines of the help on checking. -/
def checkHelp : List String :=
  ["Check the doc comments of every Java file in a project", "",
    "Usage: doclint check [OPTIONS] [PATH]", "", "Arguments:"] ++
  optionLines 6 [("[PATH]", "Project path (default: current directory) [default: .]")] ++
  ["", "Options:"] ++
  optionLines 29
    [("    --config <CONFIG>",
        "Path to config file (default: .doclint/config.toml or doclint.toml)"),
      formatOption, includeOption,
      ("    --min-length <MIN_LENGTH>", "Minimum number of real comment characters"),
      excludeOption,
      ("    --no-check-references", "Do not resolve @link, @see and @value references"),
      ("    --require-override", "Report overriding methods without @Override"), helpOption]

/-- The lines of the help on looking up names. -/
def resolveHelp : List String :=
  ["Resolve a type name as it would be seen from inside a source file", "",
    "Usage: doclint resolve [OPTIONS] --file <FILE> <NAME>", "", "Arguments:"] ++
  optionLines 6 [("<NAME>", "Type name, e.g. `List`, `Map.Entry` or `String[]`")] ++
  ["", "Options:"] ++
  optionLines 23
    [("    --file <FILE>", "Java file providing the package, imports and enclosing type"),
      formatOption, includeOption,
      ("    --root <ROOT>", "Project root used to build the symbol table [default: .]"),
      excludeOption, helpOption]

/-- The lines of the help on the help. -/
def helpHelp : List String :=
  ["Print this message or the help of the given subcommand(s)", "",
    "Usage: doclint help [COMMAND]...", "", "Arguments:"] ++
  optionLines 12 [("[COMMAND]...", "Print help for the subcommand(s)")]

/-- The lines of the help on a topic. -/
def Topic.helpLines : Topic → List String
  | program => programHelp
  | check => checkHelp
  | resolve => resolveHelp
  | help => helpHelp

/-- The help on a topic. -/
def Topic.text (topic : Topic) : Text :=
  Text.join "\n" (topic.helpLines.map String.toList)

end DocAudit.Command
