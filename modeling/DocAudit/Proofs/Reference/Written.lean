import DocAudit.Proofs.Text
import DocAudit.Reference
import Mathlib.Data.List.Basic

/-!
References as an author writes them: a type, a member of a type, or an overload with its argument
types and perhaps their names, then perhaps a label; and how they are read.
-/

set_option autoImplicit false

namespace DocAudit.Reference

/-- Text without white space, number signs and parentheses. -/
def IsPlain (t : Text) : Prop :=
  ∀ c ∈ t, Text.isBlank c = false ∧ c ≠ '#' ∧ c ≠ '(' ∧ c ≠ ')'

instance (t : Text) : Decidable (IsPlain t) :=
  List.decidableBAll _ t

/-- A word in a list of arguments. -/
structure IsWord (word : Text) : Prop where
  ne_nil : word ≠ []
  plain : ∀ c ∈ word, Text.isBlank c = false ∧ c ≠ ',' ∧ c ≠ '(' ∧ c ≠ ')'

instance (word : Text) : Decidable (IsWord word) :=
  have : Decidable (∀ c ∈ word, Text.isBlank c = false ∧ c ≠ ',' ∧ c ≠ '(' ∧ c ≠ ')') :=
    List.decidableBAll _ word
  decidable_of_iff _ ⟨fun ⟨ne_nil, plain⟩ => IsWord.mk ne_nil plain,
    fun isWord => And.intro isWord.ne_nil isWord.plain⟩

/-- The type of an argument with white space around it, perhaps with a name after more of it. -/
structure Argument where
  before : Text
  type : Text
  name : Option (Text × Text)
  after : Text

namespace Argument

/-- The name with the gap before it. -/
def nameText (a : Argument) : Text :=
  match a.name with
  | some (gap, name) => gap ++ name
  | none => []

def text (a : Argument) : Text :=
  a.before ++ a.type ++ a.nameText ++ a.after

structure Valid (a : Argument) : Prop where
  before : ∀ c ∈ a.before, Text.isBlank c
  type : IsWord a.type
  name : ∀ part ∈ a.name, part.1 ≠ [] ∧ (∀ c ∈ part.1, Text.isBlank c) ∧ IsWord part.2
  after : ∀ c ∈ a.after, Text.isBlank c

end Argument

/-- A reference as written. A member may stand without its type. -/
inductive Written where
  | type (type : Text)
  | member (type name : Text)
  /-- White space before the arguments, which is all there is if there are none. -/
  | overload (type name blank : Text) (arguments : List Argument)

namespace Written

/-- What stands between the parentheses. -/
def argumentsText (blank : Text) (arguments : List Argument) : Text :=
  blank ++ Text.join "," (arguments.map (·.text))

def text : Written → Text
  | type t => t
  | member t name => t ++ '#' :: name
  | overload t name blank arguments =>
    t ++ '#' :: name ++ '(' :: argumentsText blank arguments ++ [')']

def Valid : Written → Prop
  | type t => t ≠ [] ∧ IsPlain t
  | member t name => IsPlain t ∧ IsPlain name
  | overload t name blank arguments =>
    IsPlain t ∧ IsPlain name ∧ (∀ c ∈ blank, Text.isBlank c) ∧ ∀ a ∈ arguments, a.Valid

end Written

section Arguments

private theorem ne_comma_of_isBlank {c : Char} (blank : Text.isBlank c) : (c == ',') = false := by
  refine beq_false_of_ne ?_
  rintro rfl
  exact absurd blank (by decide)

theorem not_paren_of_isBlank {c : Char} (blank : Text.isBlank c) : c ≠ '(' ∧ c ≠ ')' := by
  constructor
  · rintro rfl
    exact absurd blank (by decide)
  · rintro rfl
    exact absurd blank (by decide)

variable {a : Argument}

theorem IsWord.solid {word : Text} (isWord : IsWord word) : ∀ c ∈ word, ¬ Text.isBlank c := by
  intro c member
  simp [(isWord.plain c member).1]

theorem Argument.Valid.everySecond_words (valid : a.Valid) :
    Signature.everySecond (Text.words a.text) = [a.type] := by
  have first : Text.words a.type = [a.type] :=
    Text.words_eq_singleton valid.type.ne_nil valid.type.solid
  rw [Argument.text, Text.words_append_blank _ valid.after, List.append_assoc,
    Text.words_blank_append valid.before]
  cases named : a.name with
  | none =>
    rw [Argument.nameText, named, List.append_nil, first]
    rfl
  | some part =>
    obtain ⟨gap, name⟩ := part
    obtain ⟨apart, blank, word⟩ := valid.name (gap, name) named
    rw [Argument.nameText, named, ← List.append_assoc, Text.words_append_gap _ _ apart blank, first,
      Text.words_eq_singleton word.ne_nil word.solid]
    rfl

/-- Between its outer white space an argument has no comma and no parenthesis. -/
theorem Argument.Valid.plain (valid : a.Valid) : ∀ c ∈ a.text, c ≠ ',' ∧ c ≠ '(' ∧ c ≠ ')' := by
  have blank : ∀ c, Text.isBlank c → c ≠ ',' ∧ c ≠ '(' ∧ c ≠ ')' := fun c hit =>
    ⟨ne_of_beq_false (ne_comma_of_isBlank hit), not_paren_of_isBlank hit⟩
  intro c member
  simp only [Argument.text, List.mem_append] at member
  rcases member with ((member | member) | member) | member
  · exact blank c (valid.before c member)
  · exact (valid.type.plain c member).2
  · unfold Argument.nameText at member
    split at member
    · next gap name named =>
      obtain ⟨-, gapBlank, word⟩ := valid.name (gap, name) named
      rcases List.mem_append.mp member with member | member
      · exact blank c (gapBlank c member)
      · exact (word.plain c member).2
    · simp at member
  · exact blank c (valid.after c member)

/-- The type names between commas. -/
private def items (t : Text) : List Text :=
  (List.splitOn ',' t).flatMap fun item => Signature.everySecond (Text.words item)

private theorem items_blank_append {gap : Text} (blank : ∀ c ∈ gap, Text.isBlank c) (t : Text) :
    items (gap ++ t) = items t := by
  have noComma : ',' ∉ gap := fun member => absurd (blank ',' member) (by decide)
  rw [items, items, Text.splitOn_append_of_not_mem noComma]
  cases pieces : List.splitOn ',' t with
  | nil => exact absurd pieces (List.splitOn_ne_nil ',' t)
  | cons first others =>
    rw [List.modifyHead_cons, List.flatMap_cons, List.flatMap_cons, Text.words_blank_append blank]

private theorem typeNames_eq_items {list : Text} (noParens : ∀ c ∈ list, c ≠ '(' ∧ c ≠ ')') :
    Signature.typeNames list = items list := by
  obtain ⟨gap, blank, split⟩ := Text.exists_trimLeft list
  have whole : Signature.inside list = list.trimLeft := by
    have rest : ∀ c ∈ list.trimLeft, c ≠ '(' ∧ c ≠ ')' := fun c member =>
      noParens c ((List.dropWhile_suffix _).subset member)
    unfold Signature.inside
    split
    · next found =>
      exact absurd rfl (rest '(' (by rw [found]; exact List.mem_cons_self)).1
    · exact List.takeWhile_eq_self_iff.mpr fun c member => by simpa using (rest c member).2
  calc Signature.typeNames list = items list.trimLeft := by rw [Signature.typeNames, whole, items]
    _ = items (gap ++ list.trimLeft) := (items_blank_append blank _).symm
    _ = items list := by rw [← split]

private theorem mem_join {texts : List Text} {c : Char} (member : c ∈ Text.join "," texts) :
    c = ',' ∨ ∃ t ∈ texts, c ∈ t := by
  induction texts with
  | nil => simp [Text.join] at member
  | cons t texts ih =>
    cases texts with
    | nil => exact Or.inr ⟨t, List.mem_cons_self, by simpa [Text.join] using member⟩
    | cons u texts =>
      have split : Text.join "," (t :: u :: texts) = t ++ ',' :: Text.join "," (u :: texts) := by
        simp [Text.join, List.intercalate]
      rw [split, List.mem_append, List.mem_cons] at member
      rcases member with member | comma | member
      · exact Or.inr ⟨t, List.mem_cons_self, member⟩
      · exact Or.inl comma
      · rcases ih member with comma | ⟨v, among, member⟩
        · exact Or.inl comma
        · exact Or.inr ⟨v, List.mem_cons_of_mem t among, member⟩

variable {blank : Text} {arguments : List Argument}

theorem Written.not_paren_of_mem_argumentsText (isBlank : ∀ c ∈ blank, Text.isBlank c)
    (valid : ∀ a ∈ arguments, a.Valid) :
    ∀ c ∈ argumentsText blank arguments, c ≠ '(' ∧ c ≠ ')' := by
  intro c member
  rcases List.mem_append.mp member with member | member
  · exact not_paren_of_isBlank (isBlank c member)
  · rcases mem_join member with rfl | ⟨t, among, member⟩
    · exact ⟨by decide, by decide⟩
    · obtain ⟨a, isArgument, rfl⟩ := List.mem_map.mp among
      exact ((valid a isArgument).plain c member).2

/-- The type names of written arguments are read back, their names are passed over. -/
theorem Written.typeNames_argumentsText (isBlank : ∀ c ∈ blank, Text.isBlank c)
    (valid : ∀ a ∈ arguments, a.Valid) :
    Signature.typeNames (argumentsText blank arguments) = arguments.map (·.type) := by
  rw [typeNames_eq_items (not_paren_of_mem_argumentsText isBlank valid), argumentsText,
    items_blank_append isBlank]
  by_cases none : arguments = []
  · subst none
    rfl
  · have noComma : ∀ t ∈ arguments.map (·.text), ',' ∉ t := by
      intro t among member
      obtain ⟨a, isArgument, rfl⟩ := List.mem_map.mp among
      exact absurd rfl ((valid a isArgument).plain ',' member).1
    have cut : List.splitOn ',' (Text.join "," (arguments.map (·.text))) =
        arguments.map (·.text) := List.splitOn_intercalate ',' noComma (by simpa using none)
    rw [items, cut, List.flatMap_map]
    calc arguments.flatMap (fun a => Signature.everySecond (Text.words a.text))
        = arguments.flatMap fun a => [a.type] :=
          List.flatMap_congr fun a isArgument => (valid a isArgument).everySecond_words
      _ = arguments.map (·.type) := List.flatMap_pure_eq_map _ _

end Arguments

end DocAudit.Reference
