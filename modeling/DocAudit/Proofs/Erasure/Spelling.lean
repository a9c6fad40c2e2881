import DocAudit.Erasure
import DocAudit.Proofs.Scope.CanonicalName
import Mathlib.Data.List.Basic

/-!
The ways to spell a type. Its type arguments, its white space and the choice between brackets and dots
make no difference to its erasure.
-/

set_option autoImplicit false

namespace DocAudit.Erasure

/-- White space and the marks that types are written with are not part of an identifier. -/
def isNameChar (c : Char) : Bool :=
  !(Text.isBlank c || c == '.' || c == '<' || c == '>' || c == '[')

/-- Each angle bracket has its counterpart, to any depth. -/
inductive Balanced : Text → Prop
  | nil : Balanced []
  | plain {c : Char} {rest : Text} : c ≠ '<' → c ≠ '>' → Balanced rest → Balanced (c :: rest)
  | nested {inner rest : Text} :
    Balanced inner → Balanced rest → Balanced ('<' :: (inner ++ '>' :: rest))

/-- An identifier of a dotted name, with the text of its type arguments if it has some. -/
structure Part where
  name : Text
  arguments : Option Text
  ne_nil : name ≠ []
  isName : name.all isNameChar
  balanced : ∀ text ∈ arguments, Balanced text

/-- A type as written: a dotted name, so many pairs of brackets, and perhaps three dots. -/
structure Spelling where
  first : Part
  others : List Part
  pairs : Nat
  variadic : Bool

/-- The identifier and, as one piece, the type arguments in their angle brackets. -/
def Part.lexemes (p : Part) : List Text :=
  p.name :: p.arguments.toList.map fun text => '<' :: (text ++ ['>'])

namespace Spelling

/-- The pieces with white space between them. -/
def lexemes (s : Spelling) : List Text :=
  s.first.lexemes ++ s.others.flatMap (fun p => ['.'] :: p.lexemes) ++
    (List.replicate s.pairs [['['], [']']]).flatten ++
    if s.variadic then List.replicate 3 ['.'] else []

/-- The dotted name alone. -/
def path (s : Spelling) : Text :=
  s.first.name ++ s.others.flatMap fun p => '.' :: p.name

def dimensions (s : Spelling) : Nat :=
  s.pairs + s.variadic.toNat

end Spelling

/-- The text consists of these pieces with any white space before, between and behind them. As no piece
starts with white space, all of it can be passed over first. -/
def Spaced : List Text → Text → Prop
  | [], t => t.isAllBlank
  | piece :: pieces, t =>
    t.trimLeft.startsWith piece ∧ Spaced pieces (t.trimLeft.drop piece.length)

instance instDecidableSpaced : (pieces : List Text) → (t : Text) → Decidable (Spaced pieces t)
  | [], t => inferInstanceAs (Decidable (t.isAllBlank = true))
  | piece :: pieces, t =>
    have := instDecidableSpaced pieces (t.trimLeft.drop piece.length)
    inferInstanceAs (Decidable (t.trimLeft.startsWith piece = true ∧ _))

section Arguments

variable {type t : Text}

theorem Balanced.plain_append {rest : Text} (plain : ∀ c ∈ t, c ≠ '<' ∧ c ≠ '>')
    (balanced : Balanced rest) : Balanced (t ++ rest) := by
  induction t with
  | nil => exact balanced
  | cons c t ih =>
    obtain ⟨⟨noOpening, noClosing⟩, others⟩ := List.forall_mem_cons.mp plain
    exact Balanced.plain noOpening noClosing (ih others)

private theorem dropArguments_opening (depth : Nat) (t : Text) :
    dropArguments depth ('<' :: t) = dropArguments (depth + 1) t :=
  rfl

private theorem dropArguments_closing (depth : Nat) (t : Text) :
    dropArguments (depth + 1) ('>' :: t) = dropArguments depth t :=
  rfl

/-- Inside angle brackets nothing is kept, and they close where they should. -/
private theorem dropArguments_balanced (balanced : Balanced t) (depth : Nat) (rest : Text) :
    dropArguments (depth + 1) (t ++ rest) = dropArguments (depth + 1) rest := by
  induction balanced generalizing depth rest with
  | nil => rfl
  | plain noOpening noClosing _ ih =>
    rw [List.cons_append, dropArguments, if_neg noOpening, if_neg noClosing, if_neg (by simp), ih]
  | nested _ _ inside behind =>
    -- The inner text is read one level deeper, which is why the depth is general.
    rw [List.cons_append, List.append_assoc, List.cons_append, dropArguments_opening, inside,
      dropArguments_closing, behind]

/-- Outside of angle brackets only white space is dropped. -/
theorem dropArguments_append (plain : ∀ c ∈ t, c ≠ '<' ∧ c ≠ '>') (rest : Text) :
    dropArguments 0 (t ++ rest) = t.filter (!Text.isBlank ·) ++ dropArguments 0 rest := by
  induction t with
  | nil => rfl
  | cons c t ih =>
    obtain ⟨⟨noOpening, noClosing⟩, others⟩ := List.forall_mem_cons.mp plain
    rw [List.cons_append, dropArguments, if_neg noOpening, if_neg noClosing, ih others,
      List.filter_cons]
    cases Text.isBlank c <;> rfl

theorem dropArguments_of_plain (plain : ∀ c ∈ type, c ≠ '<' ∧ c ≠ '>') :
    dropArguments 0 type = type.filter (!Text.isBlank ·) := by
  have whole := dropArguments_append plain []
  rw [List.append_nil] at whole
  exact whole.trans (List.append_nil _)

/-- What follows a piece is read as if nothing stood before it. -/
private def Closed (piece : Text) : Prop :=
  ∀ rest, dropArguments 0 (piece ++ rest) = dropArguments 0 piece ++ dropArguments 0 rest

private theorem closed_of_plain (plain : ∀ c ∈ t, c ≠ '<' ∧ c ≠ '>') : Closed t := by
  intro rest
  rw [dropArguments_append plain, dropArguments_of_plain plain]

private theorem dropArguments_arguments (balanced : Balanced t) (rest : Text) :
    dropArguments 0 ('<' :: (t ++ ['>']) ++ rest) = dropArguments 0 rest := by
  rw [List.cons_append, List.append_assoc, dropArguments_opening, dropArguments_balanced balanced]
  rfl

private theorem closed_arguments (balanced : Balanced t) : Closed ('<' :: (t ++ ['>'])) := by
  intro rest
  have alone := dropArguments_arguments balanced []
  rw [List.append_nil] at alone
  rw [dropArguments_arguments balanced, alone]
  rfl

private theorem dropArguments_blank_append (blank : ∀ c ∈ t, Text.isBlank c) (rest : Text) :
    dropArguments 0 (t ++ rest) = dropArguments 0 rest := by
  have plain : ∀ c ∈ t, c ≠ '<' ∧ c ≠ '>' := by
    intro c member
    constructor <;> rintro rfl <;> exact absurd (blank _ member) (by decide)
  have nothing : t.filter (!Text.isBlank ·) = [] := by
    simpa [List.filter_eq_nil_iff] using blank
  rw [dropArguments_append plain, nothing, List.nil_append]

private theorem dropArguments_trimLeft (t : Text) :
    dropArguments 0 t.trimLeft = dropArguments 0 t := by
  obtain ⟨gap, blank, whole⟩ := Text.exists_trimLeft t
  rw [← dropArguments_blank_append blank, ← whole]

/-- Each piece is read by itself, whatever white space stands between them. -/
private theorem dropArguments_of_spaced {pieces : List Text} (closed : ∀ piece ∈ pieces, Closed piece)
    (spaced : Spaced pieces type) : dropArguments 0 type = pieces.flatMap (dropArguments 0) := by
  induction pieces generalizing type with
  | nil =>
    have nothing := dropArguments_blank_append (List.all_eq_true.mp spaced) []
    rw [List.append_nil] at nothing
    exact nothing
  | cons piece pieces ih =>
    obtain ⟨front, others⟩ := List.forall_mem_cons.mp closed
    obtain ⟨starts, later⟩ := spaced
    obtain ⟨rest, split⟩ := List.isPrefixOf_iff_prefix.mp starts
    rw [← split, List.drop_left] at later
    rw [← dropArguments_trimLeft, ← split, front, ih others later, List.flatMap_cons]

end Arguments

section Pieces

variable {t : Text} {c : Char}

private theorem of_isNameChar (letter : isNameChar c) :
    Text.isBlank c = false ∧ c ≠ '.' ∧ c ≠ '<' ∧ c ≠ '>' ∧ c ≠ '[' := by
  simpa [isNameChar, and_assoc] using letter

private theorem Part.letter (p : Part) (member : c ∈ p.name) : isNameChar c :=
  List.all_eq_true.mp p.isName c member

private theorem Part.plain (p : Part) : ∀ c ∈ p.name, c ≠ '<' ∧ c ≠ '>' := by
  intro c member
  obtain ⟨-, -, noOpening, noClosing, -⟩ := of_isNameChar (p.letter member)
  exact ⟨noOpening, noClosing⟩

private theorem dropArguments_eq_self (plain : ∀ c ∈ t, c ≠ '<' ∧ c ≠ '>')
    (solid : ∀ c ∈ t, Text.isBlank c = false) : dropArguments 0 t = t := by
  rw [dropArguments_of_plain plain, List.filter_eq_self]
  intro c member
  rw [solid c member]
  rfl

private theorem Part.closed (p : Part) : ∀ piece ∈ p.lexemes, Closed piece := by
  refine List.forall_mem_cons.mpr ⟨closed_of_plain p.plain, ?_⟩
  intro piece member
  obtain ⟨text, found, rfl⟩ := List.mem_map.mp member
  exact closed_arguments (p.balanced text (Option.mem_toList.mp found))

private theorem Part.flatMap_lexemes (p : Part) : p.lexemes.flatMap (dropArguments 0) = p.name := by
  have nothing : (p.arguments.toList.map fun text => '<' :: (text ++ ['>'])).flatMap
      (dropArguments 0) = [] := by
    rw [List.flatMap_map, List.flatMap_eq_nil_iff]
    intro text found
    have alone := dropArguments_arguments (p.balanced text (Option.mem_toList.mp found)) []
    rwa [List.append_nil] at alone
  have name := dropArguments_eq_self p.plain fun c member => (of_isNameChar (p.letter member)).1
  rw [Part.lexemes, List.flatMap_cons, nothing, List.append_nil, name]

private theorem closed_mark (other : c ≠ '<' ∧ c ≠ '>') : Closed [c] :=
  closed_of_plain (by simpa using other)

private theorem Spelling.closed (s : Spelling) : ∀ piece ∈ s.lexemes, Closed piece := by
  simp only [Spelling.lexemes, List.forall_mem_append, List.mem_flatMap]
  refine ⟨⟨⟨s.first.closed, ?_⟩, ?_⟩, ?_⟩
  · rintro piece ⟨p, -, member⟩
    rcases List.mem_cons.mp member with rfl | ofPart
    · exact closed_mark (by decide)
    · exact p.closed piece ofPart
  · intro piece member
    obtain ⟨pair, repeated, member⟩ := List.mem_flatten.mp member
    rw [List.eq_of_mem_replicate repeated, List.mem_cons, List.mem_singleton] at member
    rcases member with rfl | rfl <;> exact closed_mark (by decide)
  · intro piece member
    split_ifs at member
    · rw [List.eq_of_mem_replicate member]
      exact closed_mark (by decide)
    · exact absurd member List.not_mem_nil

private theorem flatMap_pairs (pairs : Nat) :
    (List.replicate pairs [['['], [']']]).flatten.flatMap (dropArguments 0) =
      JavaType.suffix pairs := by
  induction pairs with
  | zero => rfl
  | succ pairs ih =>
    rw [List.replicate_succ, List.flatten_cons, List.flatMap_append, ih, JavaType.suffix_succ]
    rfl

/-- What is kept of a type is its dotted name, its brackets and its dots. -/
private theorem Spelling.flatMap_lexemes (s : Spelling) :
    s.lexemes.flatMap (dropArguments 0) =
      s.path ++ (JavaType.suffix s.pairs ++ if s.variadic then ['.', '.', '.'] else []) := by
  have others : (s.others.flatMap fun p => ['.'] :: p.lexemes).flatMap (dropArguments 0) =
      s.others.flatMap fun p => '.' :: p.name := by
    rw [List.flatMap_assoc]
    refine List.flatMap_congr fun p _ => ?_
    rw [List.flatMap_cons, p.flatMap_lexemes]
    rfl
  have dots : (if s.variadic then List.replicate 3 ['.'] else []).flatMap (dropArguments 0) =
      if s.variadic then ['.', '.', '.'] else [] := by
    cases s.variadic <;> rfl
  rw [Spelling.lexemes, List.flatMap_append, List.flatMap_append, List.flatMap_append,
    s.first.flatMap_lexemes, others, flatMap_pairs, dots, Spelling.path, List.append_assoc]

end Pieces

section Brackets

variable {scope : Scope} {table : TypeTable} {inScope : List TypeVariable}
  {base name type : Text} {dimensions : Nat} {c : Char}

theorem dotsToBrackets_append (undotted : '.' ∉ name) (rest : Text) :
    dotsToBrackets (name ++ rest) = name ++ dotsToBrackets rest := by
  induction name with
  | nil => rfl
  | cons c name ih =>
    obtain ⟨noDot, others⟩ := not_or.mp (mt List.mem_cons.mpr undotted)
    rw [List.cons_append, List.cons_append, ← ih others, dotsToBrackets]
    rintro rest' rfl
    exact absurd rfl noDot

private theorem dotsToBrackets_dot (other : c ≠ '.') (rest : Text) :
    dotsToBrackets ('.' :: c :: rest) = '.' :: dotsToBrackets (c :: rest) := by
  rw [dotsToBrackets]
  rintro rest' - same
  exact absurd (List.cons.inj same).1 other

theorem countBrackets_append (plain : '[' ∉ name) (rest : Text) :
    countBrackets (name ++ rest) = countBrackets rest := by
  induction name with
  | nil => rfl
  | cons c name ih =>
    obtain ⟨noBracket, others⟩ := not_or.mp (mt List.mem_cons.mpr plain)
    rw [List.cons_append, countBrackets, ih others]
    rintro rest' rfl
    exact absurd rfl noBracket

theorem countBrackets_suffix (dimensions : Nat) :
    countBrackets (JavaType.suffix dimensions) = dimensions := by
  induction dimensions with
  | zero => rfl
  | succ dimensions ih => rw [JavaType.suffix_succ, countBrackets, ih]

/-- Dots behind some brackets are one pair more. -/
theorem dotsToBrackets_suffix (pairs : Nat) (variadic : Bool) :
    dotsToBrackets (JavaType.suffix pairs ++ if variadic then ['.', '.', '.'] else []) =
      JavaType.suffix (pairs + variadic.toNat) := by
  have undotted : '.' ∉ JavaType.suffix pairs := fun member =>
    absurd (JavaType.mem_suffix member) (by decide)
  rw [dotsToBrackets_append undotted, JavaType.suffix_add]
  cases variadic <;> rfl

/-- A type is erased by the name in front of its brackets, which is that of the innermost type
variable, if one has this name. -/
theorem erase_of_read (noBracket : '[' ∉ base)
    (read : dotsToBrackets (dropArguments 0 type) = base ++ JavaType.suffix dimensions) :
    erase scope table inScope type = ((inScope.find? fun v => v.name == base).elim
      (named scope table base) (bound scope table)).withDimensions dimensions := by
  rw [erase, read, JavaType.takeWhile_append_suffix noBracket, countBrackets_append noBracket,
    countBrackets_suffix]
  cases inScope.find? fun v => v.name == base <;> rfl

end Brackets

section Path

variable {scope : Scope} {table : TypeTable} {c : Char}

private theorem Part.undotted (p : Part) : '.' ∉ p.name :=
  fun member => (of_isNameChar (p.letter member)).2.1 rfl

namespace Spelling

private theorem of_mem_path {s : Spelling} (member : c ∈ s.path) : isNameChar c ∨ c = '.' := by
  rcases List.mem_append.mp member with ofFirst | ofOthers
  · exact Or.inl (s.first.letter ofFirst)
  · obtain ⟨p, -, member⟩ := List.mem_flatMap.mp ofOthers
    rcases List.mem_cons.mp member with dot | ofPart
    · exact Or.inr dot
    · exact Or.inl (p.letter ofPart)

private theorem solid_path (s : Spelling) :
    ∀ c ∈ s.path, Text.isBlank c = false ∧ c ≠ '<' ∧ c ≠ '>' ∧ c ≠ '[' := by
  intro c member
  rcases of_mem_path member with letter | rfl
  · obtain ⟨solid, -, others⟩ := of_isNameChar letter
    exact ⟨solid, others⟩
  · decide

private theorem path_ne_nil (s : Spelling) : s.path ≠ [] :=
  List.append_ne_nil_of_left_ne_nil s.first.ne_nil _

private theorem noBracket_path (s : Spelling) : '[' ∉ s.path :=
  fun member => (s.solid_path '[' member).2.2.2 rfl

private theorem getLast?_path (s : Spelling) : ∀ c ∈ s.path.getLast?, c ≠ '.' := by
  have ofPart (p : Part) (front : Text) : ∀ c ∈ (front ++ p.name).getLast?, c ≠ '.' := by
    rw [List.getLast?_append_of_ne_nil front p.ne_nil]
    rintro c last rfl
    exact p.undotted (List.mem_of_getLast? last)
  -- The text ends with the last identifier, which is not empty.
  rcases List.eq_nil_or_concat s.others with nothing | ⟨front, last, others⟩
  · rw [path, nothing, List.flatMap_nil, List.append_nil]
    exact ofPart s.first []
  · have split : s.path =
        (s.first.name ++ front.flatMap (fun p => '.' :: p.name) ++ ['.']) ++ last.name := by
      rw [path, others, List.concat_eq_append, List.flatMap_append, List.flatMap_singleton]
      simp
    rw [split]
    exact ofPart last _

private theorem dotsToBrackets_path (s : Spelling) (rest : Text) :
    dotsToBrackets (s.path ++ rest) = s.path ++ dotsToBrackets rest := by
  have later : dotsToBrackets ((s.others.flatMap fun p => '.' :: p.name) ++ rest) =
      (s.others.flatMap fun p => '.' :: p.name) ++ dotsToBrackets rest := by
    induction s.others with
    | nil => rfl
    | cons p others ih =>
      -- A letter follows the dot, so that no three dots stand in a row.
      obtain ⟨c, tail, letters⟩ := List.exists_cons_of_ne_nil p.ne_nil
      have noDot : c ≠ '.' := by
        rintro rfl
        exact p.undotted (letters ▸ List.mem_cons_self)
      rw [List.flatMap_cons, List.append_assoc, List.append_assoc, ← ih,
        List.cons_append, List.cons_append, ← dotsToBrackets_append p.undotted, letters,
        List.cons_append, dotsToBrackets_dot noDot]
  rw [path, List.append_assoc, List.append_assoc, dotsToBrackets_append s.first.undotted, later]

/-- However a type is written, its dotted name and its brackets are read. -/
private theorem read {s : Spelling} {type : Text} (spelled : Spaced s.lexemes type) :
    dotsToBrackets (dropArguments 0 type) = s.path ++ JavaType.suffix s.dimensions := by
  rw [dropArguments_of_spaced s.closed spelled, s.flatMap_lexemes, dotsToBrackets_path,
    dotsToBrackets_suffix, dimensions]

private theorem dropArguments_eq_path {s : Spelling} {type : Text} (noArray : s.dimensions = 0)
    (spelled : Spaced s.lexemes type) : dropArguments 0 type = s.path := by
  obtain ⟨noPair, noDots⟩ := Nat.add_eq_zero_iff.mp noArray
  have noDots' : s.variadic = false := by simpa using noDots
  rw [dropArguments_of_spaced s.closed spelled, s.flatMap_lexemes, noPair, noDots']
  exact List.append_nil _

private theorem read_path (s : Spelling) :
    dotsToBrackets (dropArguments 0 s.path) = s.path ++ JavaType.suffix 0 := by
  have plain : ∀ c ∈ s.path, c ≠ '<' ∧ c ≠ '>' := fun c member =>
    ⟨(s.solid_path c member).2.1, (s.solid_path c member).2.2.1⟩
  have whole := s.dotsToBrackets_path []
  rw [List.append_nil] at whole
  rw [dropArguments_eq_self plain fun c member => (s.solid_path c member).1, whole]
  rfl

private theorem isElementName_path (s : Spelling) : JavaType.IsElementName s.path where
  trimmed := Text.trim_eq_self fun c member => by simp [(s.solid_path c member).1]
  noSuffix := s.noBracket_path
  ending dots := by
    obtain ⟨front, split⟩ := List.isSuffixOf_iff_suffix.mp dots
    have last : '.' ∈ s.path.getLast? := by
      rw [← split, List.getLast?_append]
      rfl
    exact s.getLast?_path '.' last rfl

private theorem named_path (s : Spelling) :
    (named scope table s.path).withDimensions 0 = named scope table s.path := by
  -- There is no suffix to be split off.
  have parts := s.isElementName_path.splitSuffix_trim s.path_ne_nil 0
  have bare : s.path ++ JavaType.suffix 0 = s.path := List.append_nil _
  rw [bare] at parts
  cases found : scope.resolve? table s.path with
  | none =>
    rw [named, found]
    rfl
  | some ty =>
    obtain ⟨-, dimensions⟩ := Scope.resolve?_eq_some_iff.mp found
    rw [parts] at dimensions
    have none : ty.dimensions = 0 := dimensions
    rw [named, found, Option.getD_some, JavaType.withDimensions, ← none]

end Spelling

end Path

section Variables

variable {inScope : List TypeVariable} {scopes inner outer : List (List TypeVariable)}
  {own : List TypeVariable} {name : Text} {v : TypeVariable}

theorem find?_eq_none_of_others (others : ∀ v ∈ inScope, v.name ≠ name) :
    inScope.find? (·.name == name) = none :=
  List.find?_eq_none.mpr fun v member => by simpa using others v member

private theorem find?_flatten_eq_none (others : ∀ vs ∈ scopes, ∀ v ∈ vs, v.name ≠ name) :
    scopes.flatten.find? (·.name == name) = none := by
  refine find?_eq_none_of_others fun v member => ?_
  obtain ⟨vs, ofScopes, ofScope⟩ := List.mem_flatten.mp member
  exact others vs ofScopes v ofScope

/-- Of several variables with one name that of the innermost scope is found. -/
private theorem find?_flatten (shadows : own.find? (·.name == name) = some v)
    (others : ∀ vs ∈ inner, ∀ w ∈ vs, w.name ≠ name) :
    (inner ++ own :: outer).flatten.find? (·.name == name) = some v := by
  rw [List.flatten_append, List.flatten_cons, List.find?_append, List.find?_append,
    find?_flatten_eq_none others, shadows]
  rfl

end Variables

/-- However a type is written, with any type arguments and any white space, it has the erasure of its
dotted name with a dimension for each pair of brackets and for the dots. The name becomes the bound of
the type variable that the innermost scope declares, or the common superclass of all classes where it
has no bound, or else the type that it stands for. -/
theorem erase_of_spelling (scope : Scope) (table : TypeTable) (scopes : List (List TypeVariable))
    (s : Spelling) (type : Text) (spelled : Spaced s.lexemes type) :
    let erased := erase scope table scopes.flatten
    erased type = (erased s.path).withDimensions s.dimensions ∧
      (∀ inner own outer v, scopes = inner ++ own :: outer →
        (∀ vs ∈ inner, ∀ w ∈ vs, w.name ≠ s.path) → own.find? (·.name == s.path) = some v →
          (v.bound = none → erased s.path = .object) ∧
          ∀ text ∈ v.bound,
            erased s.path = (named scope table (dropArguments 0 text)).withDimensions 0 ∧
            ∀ b : Spelling, b.dimensions = 0 → Spaced b.lexemes text →
              erased s.path = named scope table b.path) ∧
      ((∀ vs ∈ scopes, ∀ v ∈ vs, v.name ≠ s.path) → erased s.path = named scope table s.path) := by
  intro erased
  have whole := @erase_of_read scope table scopes.flatten _ _ _ s.noBracket_path (Spelling.read spelled)
  have path := @erase_of_read scope table scopes.flatten _ _ _ s.noBracket_path s.read_path
  refine ⟨?_, ?_, ?_⟩
  · exact whole.trans (congrArg (·.withDimensions s.dimensions) path.symm)
  · rintro inner own outer v rfl others declares
    rw [find?_flatten declares others] at path
    have ofVariable : erased s.path = (bound scope table v).withDimensions 0 := path
    refine ⟨fun unbounded => ?_, fun text bounded => ?_⟩
    · rw [ofVariable, bound, unbounded]
      rfl
    · have ofBound : erased s.path = (named scope table (dropArguments 0 text)).withDimensions 0 := by
        rw [ofVariable, bound, Option.mem_def.mp bounded]
      refine ⟨ofBound, fun b noArray spelled => ?_⟩
      rw [ofBound, Spelling.dropArguments_eq_path noArray spelled, b.named_path]
  · intro others
    rw [find?_flatten_eq_none others, Option.elim_none, s.named_path] at path
    exact path

/-- A variable number of arrays of settings, with type arguments. -/
def settingsArrays : Spelling where
  first := ⟨"App", none, by decide, by decide +kernel, by simp⟩
  others := [{
    name := "Settings"
    arguments := some (" K , List ".toList ++ '<' :: (['V'] ++ '>' :: [' ']))
    ne_nil := by decide
    isName := by decide +kernel
    balanced := by
      have letter : Balanced ['V'] := .plain (by decide) (by decide) .nil
      have space : Balanced [' '] := .plain (by decide) (by decide) .nil
      rintro _ ⟨⟩
      exact .plain_append (by simp) (.nested letter space) }]
  pairs := 1
  variadic := true

def variableArray : Spelling :=
  ⟨⟨"T", none, by decide, by decide +kernel, by simp⟩, [], 1, false⟩

/-- The settings are found behind white space and type arguments, and as the bound of the inner of two
variables with one name. -/
theorem erase_of_spelling_settings :
    let scopes : List (List TypeVariable) :=
      [[⟨"K", none⟩], [⟨"T", some "Settings < T >"⟩], [⟨"T", none⟩]]
    let erased := erase Scope.inApp Scope.settings scopes.flatten
    Spaced settingsArrays.lexemes " App . Settings< K , List <V> > [ ] . .. " ∧
      Spaced variableArray.lexemes "T [ ]" ∧
      erased " App . Settings< K , List <V> > [ ] . .. " = ⟨"com.example.App$Settings", 2⟩ ∧
      erased "T [ ]" = ⟨"com.example.App$Settings", 1⟩ := by
  intro scopes erased
  have arrays : Spaced settingsArrays.lexemes " App . Settings< K , List <V> > [ ] . .. " := by
    decide +kernel
  have array : Spaced variableArray.lexemes "T [ ]" := by decide +kernel
  obtain ⟨ofArrays, -, ofName⟩ := erase_of_spelling Scope.inApp Scope.settings scopes _ _ arrays
  obtain ⟨ofArray, ofVariable, -⟩ := erase_of_spelling Scope.inApp Scope.settings scopes _ _ array
  refine ⟨arrays, array, ofArrays.trans ?_, ofArray.trans ?_⟩
  · rw [ofName (by decide +kernel)]
    decide +kernel
  · obtain ⟨-, bounded⟩ := ofVariable [[⟨"K", none⟩]] [⟨"T", some "Settings < T >"⟩] [[⟨"T", none⟩]] _
      rfl (by decide +kernel) rfl
    rw [(bounded _ rfl).1]
    decide +kernel

end DocAudit.Erasure
