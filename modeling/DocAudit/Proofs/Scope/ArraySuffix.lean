import DocAudit.JavaType
import DocAudit.Proofs.Text

/-!
Names with an array suffix. The name of an element type and the suffix after it are told apart, so a
type is read back from its binary name.
-/

set_option autoImplicit false

namespace DocAudit.JavaType

variable {base : Text} {dimensions : Nat}

theorem suffix_succ (dimensions : Nat) :
    suffix (dimensions + 1) = '[' :: ']' :: suffix dimensions := by
  rw [suffix, List.replicate_succ, List.flatten_cons]
  rfl

theorem suffix_add (m n : Nat) : suffix (m + n) = suffix m ++ suffix n := by
  rw [suffix, ← List.replicate_append_replicate, List.flatten_append]
  rfl

theorem mem_suffix {c : Char} (member : c ∈ suffix dimensions) : c = '[' ∨ c = ']' := by
  obtain ⟨pair, inSuffix, member⟩ := List.mem_flatten.mp member
  rw [List.eq_of_mem_replicate inSuffix] at member
  simpa using member

private theorem count_suffix (dimensions : Nat) : (suffix dimensions).count ']' = dimensions := by
  induction dimensions with
  | zero => rfl
  | succ dimensions ih =>
    rw [suffix_succ, List.count_cons_of_ne (by decide), List.count_cons_self, ih]

/-- The text in front of a suffix ends where the brackets start. -/
theorem takeWhile_append_suffix (noSuffix : '[' ∉ base) (dimensions : Nat) :
    (base ++ suffix dimensions).takeWhile (· != '[') = base := by
  have plain : ∀ c ∈ base, (c != '[') = true := by
    intro c member
    exact bne_iff_ne.mpr (ne_of_mem_of_not_mem member noSuffix)
  rw [List.takeWhile_append_of_pos plain]
  cases dimensions with
  | zero => exact List.append_nil base
  | succ dimensions => rw [suffix_succ, List.takeWhile_cons_of_neg (by decide), List.append_nil]

private theorem dropEnding?_suffix (ending : ¬ base.endsWith "...") (dimensions : Nat) :
    Text.dropEnding? (base ++ suffix dimensions) "..." = none := by
  rw [Text.dropEnding?, if_neg]
  cases dimensions with
  | zero => simpa [suffix] using ending
  | succ dimensions =>
    intro dots
    have ends : ['.', '.', '.'] <:+ base ++ suffix (dimensions + 1) :=
      List.isSuffixOf_iff_suffix.mp dots
    obtain ⟨front, split⟩ := ends
    have ne_nil : suffix (dimensions + 1) ≠ [] := by
      rw [suffix_succ]
      exact List.cons_ne_nil _ _
    obtain ⟨c, last⟩ := Option.isSome_iff_exists.mp (List.getLast?_isSome.mpr ne_nil)
    have same := congrArg List.getLast? split
    rw [List.getLast?_append, List.getLast?_append, last] at same
    obtain rfl : '.' = c := by simpa using same
    exact absurd (mem_suffix (List.mem_of_getLast? last)) (by decide)

private theorem dropWhile_append_suffix (noSuffix : '[' ∉ base) (dimensions : Nat) :
    (base ++ suffix dimensions).dropWhile (· != '[') = suffix dimensions := by
  have plain : ∀ c ∈ base, (c != '[') = true := by
    intro c member
    exact bne_iff_ne.mpr (ne_of_mem_of_not_mem member noSuffix)
  rw [List.dropWhile_append_of_pos plain]
  cases dimensions with
  | zero => rfl
  | succ dimensions => rw [suffix_succ, List.dropWhile_cons_of_neg (by decide)]

/-- The brackets are counted on top of what the dots stand for. -/
private theorem split_brackets (noSuffix : '[' ∉ base)
    (last : ∀ c ∈ base.getLast?, ¬ Text.isBlank c) (dimensions extra : Nat) :
    (let brackets := (base ++ suffix dimensions).dropWhile (· != '[')
      if brackets.contains ']' then
        (Text.trimRight ((base ++ suffix dimensions).takeWhile (· != '[')),
          brackets.count ']' + extra)
      else (base ++ suffix dimensions, extra)) = (base, dimensions + extra) := by
  simp only [dropWhile_append_suffix noSuffix, takeWhile_append_suffix noSuffix, count_suffix]
  cases dimensions with
  | zero => simp [suffix]
  | succ dimensions =>
    rw [Text.trimRight_eq_self last, suffix_succ]
    rfl

/-- An element name and a suffix are told apart. -/
theorem splitSuffix_append (noSuffix : '[' ∉ base) (last : ∀ c ∈ base.getLast?, ¬ Text.isBlank c)
    (ending : ¬ base.endsWith "...") (dimensions : Nat) :
    splitSuffix (base ++ suffix dimensions) = (base, dimensions) := by
  rw [splitSuffix, dropEnding?_suffix ending]
  exact split_brackets noSuffix last dimensions 0

/-- The dots of a variable number of arguments stand for one dimension more. -/
theorem splitSuffix_append_dots (noSuffix : '[' ∉ base)
    (last : ∀ c ∈ base.getLast?, ¬ Text.isBlank c) (dimensions : Nat) :
    splitSuffix (base ++ suffix dimensions ++ ("..." : Text)) = (base, dimensions + 1) := by
  have dots : Text.dropEnding? (base ++ suffix dimensions ++ ("..." : Text)) "..." =
      some (base ++ suffix dimensions) := by
    have ends : Text.endsWith (base ++ suffix dimensions ++ ("..." : Text)) "..." :=
      List.isSuffixOf_iff_suffix.mpr (List.suffix_append _ _)
    rw [Text.dropEnding?, if_pos ends, List.length_append, Nat.add_sub_cancel,
      List.take_left']
    rfl
  rw [splitSuffix, dots]
  exact split_brackets noSuffix last dimensions 1

/-- A name that stays as it is before an array suffix: it has no white space around it and does not
look like one that has a suffix already. -/
structure IsElementName (name : Text) : Prop where
  trimmed : name.trim = name
  noSuffix : '[' ∉ name
  ending : ¬ name.endsWith "..."

instance (name : Text) : Decidable (IsElementName name) :=
  decidable_of_iff (name.trim = name ∧ '[' ∉ name ∧ ¬ name.endsWith "...")
    ⟨fun ⟨trimmed, noSuffix, ending⟩ => ⟨trimmed, noSuffix, ending⟩,
      fun ⟨trimmed, noSuffix, ending⟩ => ⟨trimmed, noSuffix, ending⟩⟩

namespace IsElementName

/-- White space is trimmed from around a type, and there is none. -/
theorem splitSuffix_trim (isElement : IsElementName base) (ne_nil : base ≠ []) (dimensions : Nat) :
    splitSuffix (Text.trim (base ++ suffix dimensions)) = (base, dimensions) := by
  obtain ⟨first, last⟩ := Text.trim_eq_self_iff.mp isElement.trimmed
  have whole : Text.trimRight (suffix dimensions) = suffix dimensions := by
    refine Text.trimRight_eq_self fun c found => ?_
    rcases mem_suffix (List.mem_of_getLast? found) with rfl | rfl <;> decide
  rw [Text.trim_append _ ne_nil first last, whole]
  exact splitSuffix_append isElement.noSuffix last isElement.ending dimensions

theorem ofBinaryName_binaryName {ty : JavaType} (isElement : IsElementName ty.element)
    (ne_nil : ty.element ≠ []) : ofBinaryName ty.binaryName = ty := by
  rw [ofBinaryName, binaryName, isElement.splitSuffix_trim ne_nil]

end IsElementName

end DocAudit.JavaType
