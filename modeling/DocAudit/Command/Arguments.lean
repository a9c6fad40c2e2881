import DocAudit.Command

/-!
Reading a command from its arguments: options before the task, the task, and its options and words.
After two dashes all arguments are words.
-/

set_option autoImplicit false

namespace DocAudit.Command

/-- The forms of an argument. -/
inductive Argument where
  | word (text : Text)
  /-- Two dashes. -/
  | escape
  | long (name : Text) (value : Option Text)
  | short (letters : Text)

/-- The form of an argument. A dash alone is a word. -/
def Argument.read (argument : Text) : Argument :=
  match argument with
  | ['-', '-'] => .escape
  | '-' :: '-' :: rest =>
    match Text.cutFirst? (· == '=') rest with
    | some (name, value) => .long name (some value)
    | none => .long rest none
  | '-' :: c :: rest => .short (c :: rest)
  | _ => .word argument

/-- The options and words that are read so far. -/
structure Given where
  flags : List (Flag × Text) := []
  words : List Text := []

namespace Given

/-- The value of an option. -/
def value? (g : Given) (flag : Flag) : Option Text :=
  g.flags.lookup flag

/-- The values of an option that may be repeated. -/
def values (g : Given) (flag : Flag) : List Text :=
  (g.flags.filter fun entry => entry.1 = flag).map (·.2)

/-- Whether an option is given. -/
def has (g : Given) (flag : Flag) : Bool :=
  (g.value? flag).isSome

end Given

/-- The form of output of a name. -/
def readFormat? (value : Text) : Option OutputFormat :=
  if value = "text" then some .text
  else if value = "json" then some .json
  else if value = "compact" then some .compact
  else none

/-- The number of a decimal notation below `2 ^ 64`, which may have a plus sign. -/
def readLength? (value : Text) : Option Nat :=
  let digits : Text :=
    match value with
    | '+' :: rest => rest
    | _ => value
  if digits.isEmpty || !digits.all Char.isDigit then none
  else
    let n := digits.foldl (fun n c => 10 * n + (c.toNat - '0'.toNat)) 0
    if n < Nat.pow 2 64 then some n else none

/-- Whether an option can have a value. -/
def Flag.admits (flag : Flag) (value : Text) : Bool :=
  match flag with
  | .format => (readFormat? value).isSome
  | .minimumLength => (readLength? value).isSome
  | _ => true

/-- The options with one more. -/
def Given.add (g : Given) (flag : Flag) (value : Text) : Except Stop Given :=
  if g.has flag && !flag.isRepeatable then .error (.misuse (.repeated flag))
  else if flag.admits value then .ok { g with flags := g.flags ++ [(flag, value)] }
  else .error (.misuse (.badValue flag value))

/-- The words with one more. A task takes one, and the program none. -/
def Given.addWord (topic : Topic) (g : Given) (word : Text) : Except Stop Given :=
  if topic = .program || !g.words.isEmpty then .error (.misuse (.unexpected word))
  else .ok { g with words := g.words ++ [word] }

/-- What options of one letter ask for. The first letter decides. -/
def stopOfLetters (topic : Topic) (letters : Text) : Stop :=
  match letters.head? with
  | some 'h' => .help topic
  | some 'V' => if topic = .program then .version else .misuse (.unexpected ('-' :: letters))
  | _ => .misuse (.unexpected ('-' :: letters))

/-- The options and words of a topic, and the arguments from the task on where the topic is the
program. An option and its value are one argument or two. -/
def readArguments (topic : Topic) (g : Given) :
    List Text → Except Stop (Given × List Text)
  | [] => .ok (g, [])
  | argument :: rest =>
    match Argument.read argument with
    | .escape => do
      let g ← rest.foldlM (Given.addWord topic) g
      return (g, [])
    | .short letters => .error (stopOfLetters topic letters)
    | .word word =>
      if topic = .program then .ok (g, argument :: rest)
      else do
        let g ← g.addWord topic word
        readArguments topic g rest
    | .long name value =>
      if name = "help" && value.isNone then .error (.help topic)
      else if name = "version" && value.isNone && topic = .program then .error .version
      else
        match topic.flags.find? fun flag => flag.name = name with
        | none => .error (.misuse (.unexpected argument))
        | some flag =>
          match flag.takesValue, value with
          | true, some value => do
            let g ← g.add flag value
            readArguments topic g rest
          | false, none => do
            let g ← g.add flag []
            readArguments topic g rest
          | false, some _ => .error (.misuse (.needlessValue flag))
          | true, none =>
            match rest with
            | [] => .error (.misuse (.missingValue flag))
            | value :: rest =>
              match Argument.read value with
              | .word value => do
                let g ← g.add flag value
                readArguments topic g rest
              | _ => .error (.misuse (.missingValue flag))

/-- The task of checking a project. -/
def checkTask (g : Given) : Task :=
  .check (g.words.head?.getD ".") (g.value? .configuration)
    { minimumLength := (g.value? .minimumLength).bind readLength?
      checkReferences := if g.has .skipReferences then some false else none
      requireOverride := if g.has .requireOverride then some true else none }

/-- The task of looking up a name. -/
def resolveTask (g : Given) : Except Stop Task :=
  match g.words.head?, g.value? .file with
  | none, _ => .error (.misuse .missingName)
  | some _, none => .error (.misuse (.missingFlag .file))
  | some name, some file => .ok (.resolve name file ((g.value? .root).getD "."))

/-- A task with the options before and after it. Those after it win. -/
def withTask (task : Task) (before after : Given) : Command where
  task := task
  format := (((after.value? .format).or (before.value? .format)).bind readFormat?).getD .text
  selection :=
    { included := if after.has .included then after.values .included else before.values .included
      excluded := if after.has .excluded then after.values .excluded else before.values .excluded }

/-- What help is asked for. -/
def helpTopic (words : List Text) : Stop :=
  match words with
  | [] => .help .program
  | [word] =>
    if word = "check" then .help .check
    else if word = "resolve" then .help .resolve
    else if word = "help" then .help .help
    else .misuse (.unexpected word)
  | word :: _ => .misuse (.unexpected word)

/-- The command that arguments stand for. -/
def read (arguments : List Text) : Except Stop Command := do
  let (before, rest) ← readArguments .program {} arguments
  match rest with
  | [] => .error (.misuse .missingTask)
  | word :: rest =>
    if word = "check" then do
      let (after, _) ← readArguments .check {} rest
      return withTask (checkTask after) before after
    else if word = "resolve" then do
      let (after, _) ← readArguments .resolve {} rest
      return withTask (← resolveTask after) before after
    else if word = "help" then .error (helpTopic rest)
    else .error (.misuse (.unexpected word))

end DocAudit.Command
