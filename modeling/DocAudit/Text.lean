/-!
Text as a list of characters, with the cuts that the rest of the library makes: trimming white
space, splitting at the first or last character of a kind, and testing for a leading or trailing
piece.
-/

set_option autoImplicit false

namespace DocAudit

/-- A text is the list of its Unicode scalar values. -/
abbrev Text := List Char

/-- A string literal stands for its characters wherever a text is expected. -/
instance : Coe String Text := ⟨String.toList⟩

namespace Text

/-- The characters with the Unicode property `White_Space`. -/
def isBlank (c : Char) : Bool :=
  let n := c.toNat
  (0x09 ≤ n && n ≤ 0x0d) || n == 0x20 || n == 0x85 || n == 0xa0 || n == 0x1680 ||
    (0x2000 ≤ n && n ≤ 0x200a) || n == 0x2028 || n == 0x2029 || n == 0x202f || n == 0x205f ||
    n == 0x3000

/-- The text without its leading white space. -/
def trimLeft (t : Text) : Text :=
  t.dropWhile isBlank

/-- The text without its trailing white space. -/
def trimRight (t : Text) : Text :=
  (t.reverse.dropWhile isBlank).reverse

/-- The text without its leading and trailing white space. -/
def trim (t : Text) : Text :=
  trimRight (trimLeft t)

/-- Whether the text holds nothing but white space. -/
def isAllBlank (t : Text) : Bool :=
  t.all isBlank

/-- Whether `t` begins with `start`. -/
def startsWith (t start : Text) : Bool :=
  start.isPrefixOf t

/-- Whether `t` ends with `ending`. -/
def endsWith (t ending : Text) : Bool :=
  ending.isSuffixOf t

/-- What stands before `ending`, when `t` ends with it. -/
def dropEnding? (t ending : Text) : Option Text :=
  if t.endsWith ending then some (t.take (t.length - ending.length)) else none

/-- The parts before and after the first character that satisfies `p`. -/
def cutFirst? (p : Char → Bool) (t : Text) : Option (Text × Text) :=
  match t.dropWhile (fun c => !p c) with
  | [] => none
  | _ :: after => some (t.takeWhile (fun c => !p c), after)

/-- The parts before and after the last character that satisfies `p`. -/
def cutLast? (p : Char → Bool) (t : Text) : Option (Text × Text) :=
  (cutFirst? p t.reverse).map fun (after, before) => (before.reverse, after.reverse)

/-- What follows the last character that satisfies `p`; the whole text when none does. -/
def afterLast (p : Char → Bool) (t : Text) : Text :=
  (t.reverse.takeWhile (fun c => !p c)).reverse

/-- The text up to its first white space. -/
def firstWord (t : Text) : Text :=
  t.takeWhile (fun c => !isBlank c)

/-- The maximal runs of characters that are not white space. -/
def words (t : Text) : List Text :=
  (t.splitOnP isBlank).filter fun w => !w.isEmpty

/-- Replace every `a` by `b`. -/
def replaceChar (a b : Char) (t : Text) : Text :=
  t.map fun c => if c = a then b else c

/-- The texts joined with `separator` between neighbours. -/
def join (separator : Text) (ts : List Text) : Text :=
  List.intercalate separator ts

/-- The number of line feeds, which is the number of lines that the text ends. -/
def lineFeeds (t : Text) : Nat :=
  t.count '\n'

/-- Decimal notation. -/
def ofNat (n : Nat) : Text :=
  Nat.toDigits 10 n

end Text

end DocAudit
