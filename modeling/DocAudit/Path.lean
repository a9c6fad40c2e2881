import DocAudit.Text

/-!
Paths as texts, and their components: repeated slashes and single dots inside a path do not count.
-/

set_option autoImplicit false

namespace DocAudit.Path

/-- What a path consists of. -/
inductive Component where
  | root
  | current
  | parent
  | name (text : Text)
deriving DecidableEq

/-- The parts between slashes. -/
def segments (path : Text) : List Text :=
  List.splitOn '/' path

/-- Whether a segment stands for no component. -/
def isEmptySegment (segment : Text) : Bool :=
  segment.isEmpty || segment == "."

/-- The component that a segment inside a path stands for. -/
def componentOf (segment : Text) : Component :=
  if segment = ".." then .parent else .name segment

/-- What a path starts with, the root or a single dot, and the segments after it. -/
def start (path : Text) : List Component × List Text :=
  match segments path with
  | [] => ([], [])
  | [segment] => if segment = "." then ([.current], []) else ([], [segment])
  | segment :: rest =>
    if segment.isEmpty then ([.root], rest)
    else if segment = "." then ([.current], rest)
    else ([], segment :: rest)

/-- The components of a path. -/
def components (path : Text) : List Component :=
  let (first, rest) := start path
  first ++ (rest.filter fun s => !isEmptySegment s).map componentOf

/-- Whether a path stands for the standard input. -/
def isStandardInput (path : Text) : Bool :=
  components path == [.name "-"]

/-- A path with another one below it. -/
def below (base path : Text) : Text :=
  if base.isEmpty || base.getLast? == some '/' then base ++ path else base ++ "/" ++ path

/-- The place of a component in the order of paths: the root, single dots, double dots, names by
their characters. -/
def Component.key : Component → List Nat
  | root => [0]
  | current => [1]
  | parent => [2]
  | name text => 3 :: text.map Char.toNat

/-- The key by which paths are sorted: component by component. -/
def key (path : Text) : List (List Nat) :=
  (components path).map Component.key

/-- The segments without the empty ones at the end. -/
def dropLastEmpty (segments : List Text) : List Text :=
  (segments.reverse.dropWhile isEmptySegment).reverse

/-- The segments that remain after `count` components. -/
def dropComponents : Nat → List Text → List Text
  | 0, segments => segments
  | _, [] => []
  | count + 1, segment :: rest =>
    if isEmptySegment segment then dropComponents (count + 1) rest else dropComponents count rest

/-- The text of a path without empty segments at its end. -/
def trimEnd (path : Text) : Text :=
  match start path with
  | ([.root], rest) => '/' :: Text.join "/" (dropLastEmpty rest)
  | ([.current], rest) => Text.join "/" ("." :: dropLastEmpty rest)
  | (_, rest) => Text.join "/" (dropLastEmpty rest)

/-- What follows a base directory in a path; the path itself where it does not lie below it. -/
def relative (path base : Text) : Text :=
  let own := components base
  if own.isPrefixOf (components path) then
    if own.isEmpty then trimEnd path
    else
      let (first, rest) := start path
      Text.join "/" (dropLastEmpty
        ((dropComponents (own.length - first.length) rest).dropWhile isEmptySegment))
  else path

end DocAudit.Path
