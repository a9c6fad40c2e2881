import DocAudit.Text

/-!
Glob patterns for paths: their parts, how a pattern is read, and which paths it matches. A path is
matched byte by byte, so a wildcard for one character stands for one byte of its UTF-8 form.
-/

set_option autoImplicit false

namespace DocAudit

/-- The UTF-8 form of a text. -/
def Text.bytes (t : Text) : List UInt8 :=
  t.flatMap String.utf8EncodeChar

/-- The parts of a glob. -/
inductive Glob.Part where
  /-- A character that stands for itself. -/
  | literal (c : Char)
  /-- Any single byte. -/
  | any
  /-- Any number of bytes. -/
  | star
  /-- Any directories before the rest of the path, or none. -/
  | leading
  /-- Anything below a directory. -/
  | trailing
  /-- A slash, or any directories between two. -/
  | between
  /-- A byte in one of the ranges, or in none of them. -/
  | range (negated : Bool) (ranges : List (Char × Char))
  /-- One of several branches. -/
  | alternatives (branches : List (List Glob.Part))

namespace Glob

/-- Why a pattern is no glob. -/
inductive Fault where
  | unclosedRange
  | invalidRange (low high : Char)
  | unclosedGroup
  | unopenedGroup
  | danglingEscape
deriving DecidableEq

/-- A fault in words. -/
def Fault.message : Fault → Text
  | unclosedRange => "unclosed character class; missing ']'"
  | invalidRange low high => "invalid range; '" ++ [low] ++ "' > '" ++ [high] ++ "'"
  | unclosedGroup =>
    "unclosed alternate group; missing '\x7d' (maybe escape '\x7b' with '[\x7b]'?)"
  | unopenedGroup =>
    "unopened alternate group; missing '\x7b' (maybe escape '\x7d' with '[\x7d]'?)"
  | danglingEscape => "dangling '\\'"

/-! ### Reading a pattern -/

/-- A group of branches that is still open: its finished branches and the parts before it, both in
reverse. -/
structure OpenGroup where
  branches : List (List Part)
  before : List Part

/-- A part that stands for directories takes the place of the slash before it; it adds nothing to
another of its kind at the start or the end. -/
def replaceLast (part : Part) : List Part → List Part
  | [] => [part]
  | .leading :: parts => .leading :: parts
  | .trailing :: parts => .trailing :: parts
  | _ :: parts => part :: parts

/-- Whether two stars stand for whole directories, by the character before them: after a slash, or
at the start of a branch. -/
def isWhole (previous : Option Char) (groups : List OpenGroup) : Bool :=
  previous == '/' || (!groups.isEmpty && (previous == ',' || previous == '{'))

/-- The ranges with the last one ending in `high`. -/
def extendRange (high : Char) : List (Char × Char) → Except Fault (List (Char × Char))
  | [] => .ok []
  | (low, _) :: ranges =>
    if high < low then .error (.invalidRange low high) else .ok ((low, high) :: ranges)

mutual

/-- The parts of the pattern from a place on. If `lenient`, a bracket that opens no range stands for
itself. `previous` is the character before the place, `groups` are the open groups from the
innermost, and `here` are the parts of the branch so far, in reverse. -/
def readParts (lenient : Bool) (previous : Option Char) (groups : List OpenGroup)
    (here : List Part) : Text → Except Fault (List Part)
  | [] => if groups.isEmpty then .ok here.reverse else .error .unclosedGroup
  | '*' :: '*' :: '/' :: rest =>
    if here.isEmpty then readParts lenient (some '/') groups [.leading] rest
    else if isWhole previous groups then
      readParts lenient (some '/') groups (replaceLast .between here) rest
    else readParts lenient (some '*') groups (.star :: .star :: here) ('/' :: rest)
  | '*' :: '*' :: rest =>
    let isLast := rest.isEmpty || !groups.isEmpty && (rest.head? == ',' || rest.head? == '}')
    if here.isEmpty && rest.isEmpty then readParts lenient (some '*') groups [.leading] rest
    else if !here.isEmpty && isWhole previous groups && isLast then
      readParts lenient (some '*') groups (replaceLast .trailing here) rest
    else readParts lenient (some '*') groups (.star :: .star :: here) rest
  | '[' :: rest =>
    let parts :=
      match rest with
      | '!' :: inner => readRange lenient groups here true [] true false inner
      | '^' :: inner => readRange lenient groups here true [] true false inner
      | inner => readRange lenient groups here false [] true false inner
    match parts with
    | .error .unclosedRange =>
      if lenient then readParts lenient (some '[') groups (.literal '[' :: here) rest
      else .error .unclosedRange
    | parts => parts
  | '\\' :: rest =>
    match rest with
    | [] => .error .danglingEscape
    | c :: rest => readParts lenient (some c) groups (.literal c :: here) rest
  | c :: rest =>
    if c = '?' then readParts lenient (some c) groups (.any :: here) rest
    else if c = '*' then readParts lenient (some c) groups (.star :: here) rest
    else if c = '{' then readParts lenient (some c) (⟨[], here⟩ :: groups) [] rest
    else if c = ',' then
      match groups with
      | [] => readParts lenient (some c) [] (.literal c :: here) rest
      | group :: groups =>
        readParts lenient (some c)
          ({ group with branches := here.reverse :: group.branches } :: groups) [] rest
    else if c = '}' then
      match groups with
      | [] => .error .unopenedGroup
      | group :: groups =>
        let branches := (here.reverse :: group.branches).reverse
        readParts lenient (some c) groups (.alternatives branches :: group.before) rest
    else readParts lenient (some c) groups (.literal c :: here) rest

/-- The parts of the pattern from inside a range on. `ranges` are in reverse, `first` says whether
nothing is read yet, and `isOpen` whether a dash waits for the end of the last range. -/
def readRange (lenient : Bool) (groups : List OpenGroup) (here : List Part) (negated : Bool)
    (ranges : List (Char × Char)) (first isOpen : Bool) : Text → Except Fault (List Part)
  | [] => .error .unclosedRange
  | c :: rest =>
    if c = ']' && !first then
      let ranges := if isOpen then ('-', '-') :: ranges else ranges
      readParts lenient (some c) groups (.range negated ranges.reverse :: here) rest
    else if c = '-' && !first && !isOpen then
      readRange lenient groups here negated ranges false true rest
    else if isOpen then
      match extendRange c ranges with
      | .ok ranges => readRange lenient groups here negated ranges false false rest
      | .error fault => .error fault
    else readRange lenient groups here negated ((c, c) :: ranges) false false rest

end

/-! ### Matching a path -/

/-- The byte of a slash. -/
def slash : UInt8 := 0x2f

/-- For each rest of some bytes, from all of them to none, whether it is accepted. -/
abbrev Marks := List Bool

/-- The rests that start with a byte of a kind, after which `next` accepts. -/
def afterByte (isKind : UInt8 → Bool) : List UInt8 → Marks → Marks
  | b :: bytes, _ :: next => (isKind b && next.head? == some true) :: afterByte isKind bytes next
  | _, _ => [false]

/-- The rests of which some rest is accepted by `next`; unless `crossing`, only up to a slash. -/
def someRest (crossing : Bool) : List UInt8 → Marks → Marks
  | b :: bytes, here :: next =>
    let later := someRest crossing bytes next
    (here || ((crossing || b != slash) && later.head? == some true)) :: later
  | _, next => next

/-- The rests of which some rest that follows a slash is accepted by `next`. -/
def someDirectory : List UInt8 → Marks → Marks
  | b :: bytes, _ :: next =>
    let later := someDirectory bytes next
    ((b == slash && next.head? == some true) || later.head? == some true) :: later
  | _, _ => [false]

/-- The rests that either of two accepts. -/
def either : Marks → Marks → Marks :=
  List.zipWith or

/-- The ranges of bytes that a range of characters stands for: the bytes of both ends, and what
lies between the last byte of the one and the first of the other. -/
def byteRanges (r : Char × Char) : List (UInt8 × UInt8) :=
  let low := Text.bytes [r.1]
  let high := Text.bytes [r.2]
  let single := fun (b : UInt8) => (b, b)
  if r.1 = r.2 then low.map single
  else
    low.dropLast.map single ++ (low.getLast?.toList.zip high.head?.toList) ++
      high.tail.map single

/-- Whether a byte lies in one of the ranges. -/
def inRanges (ranges : List (Char × Char)) (b : UInt8) : Bool :=
  (ranges.flatMap byteRanges).any fun (low, high) => low ≤ b && b ≤ high

mutual

/-- Whether a part stands for nothing at all: a group of branches that are all empty. -/
def Part.isVoid : Part → Bool
  | .alternatives branches => allVoid branches
  | _ => false

/-- Whether all parts of a branch stand for nothing. -/
def isVoid : List Part → Bool
  | [] => true
  | p :: parts => p.isVoid && isVoid parts

/-- Whether all branches stand for nothing. -/
def allVoid : List (List Part) → Bool
  | [] => true
  | branch :: branches => isVoid branch && allVoid branches

end

mutual

/-- The rests that start with what a part matches, after which `next` accepts. Unless `crossing`,
the wildcards match no slash. -/
def Part.accepts (crossing : Bool) (bytes : List UInt8) (next : Marks) : Part → Marks
  | .literal c =>
    (String.utf8EncodeChar c).foldr (fun own next => afterByte (· == own) bytes next) next
  | .any => afterByte (fun b => crossing || b != slash) bytes next
  | .star => someRest crossing bytes next
  | .leading => either next (someDirectory bytes next)
  | .trailing => afterByte (· == slash) bytes (someRest true bytes next)
  | .between => afterByte (· == slash) bytes (either next (someDirectory bytes next))
  | .range negated ranges => afterByte (fun b => inRanges ranges b != negated) bytes next
  | .alternatives branches =>
    if allVoid branches then next else acceptsSome crossing bytes next branches

/-- The rests that start with what a run of parts matches, after which `next` accepts. -/
def accepts (crossing : Bool) (bytes : List UInt8) (next : Marks) : List Part → Marks
  | [] => next
  | p :: parts => p.accepts crossing bytes (accepts crossing bytes next parts)

/-- The rests that start with what a branch that is not empty matches, after which `next`
accepts. -/
def acceptsSome (crossing : Bool) (bytes : List UInt8) (next : Marks) : List (List Part) → Marks
  | [] => next.map fun _ => false
  | branch :: branches =>
    let others := acceptsSome crossing bytes next branches
    if isVoid branch then others else either (accepts crossing bytes next branch) others

end

/-- Whether a run of parts matches all of the bytes. -/
def matchesAll (crossing : Bool) (parts : List Part) (bytes : List UInt8) : Bool :=
  (accepts crossing bytes (bytes.map (fun _ => false) ++ [true]) parts).head? == some true

/-- Whether a part is a character that stands for itself. -/
def Part.isLiteral : Part → Bool
  | .literal _ => true
  | _ => false

/-- Whether a part is this character. -/
def Part.isChar (c : Char) : Part → Bool
  | .literal d => d == c
  | _ => false

/-- Whether a path has no file name: its last component is the parent directory. -/
def lacksFileName (path : Text) : Bool :=
  path.reverse.takeWhile (· != '/') == ['.', '.']

/-- Whether the parts end in a dot and call for a path with a file name. Of the globs that end in a
dot only whole paths and endings of paths do not. -/
def needsFileName (crossing : Bool) (parts : List Part) : Bool :=
  let (hasLeading, body) :=
    match parts with
    | .leading :: body => (true, body)
    | body => (false, body)
  let (hasStar, ending) :=
    match body with
    | .star :: ending => (true, ending)
    | ending => (false, ending)
  let isEnding :=
    if hasStar then crossing && ending.length != 1
    else !hasLeading || ending.any (·.isChar '/')
  parts.getLast?.any (·.isChar '.') && !(ending.all Part.isLiteral && isEnding)

end Glob

/-- A pattern for paths. -/
structure Glob where
  parts : List Glob.Part

namespace Glob

/-- The glob that a pattern stands for. -/
def read (pattern : Text) : Except Fault Glob :=
  (readParts false none [] [] pattern).map (⟨·⟩)

/-- The glob that a pattern stands for if a bracket that opens no range stands for itself. -/
def readLenient (pattern : Text) : Except Fault Glob :=
  (readParts true none [] [] pattern).map (⟨·⟩)

/-- Whether the glob matches a path; unless `crossing`, its wildcards match no slash. A glob that
calls for a file name matches no path without one. -/
def isMatch (g : Glob) (crossing : Bool) (path : Text) : Bool :=
  match g.parts with
  | [.leading] => true
  | parts =>
    matchesAll crossing parts path.bytes &&
      !(lacksFileName path && needsFileName crossing parts)

end Glob

end DocAudit
