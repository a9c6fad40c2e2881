import DocAudit.Text
import Mathlib.Data.List.TakeWhile
import Mathlib.Tactic.SplitIfs

/-!
What the cuts of a text leave: its words, the parts around a first character, and the text between
its outer white space.
-/

set_option autoImplicit false

namespace DocAudit.Text

@[simp] theorem lineFeeds_nil : lineFeeds [] = 0 := rfl

@[simp] theorem lineFeeds_append (t rest : Text) :
    lineFeeds (t ++ rest) = lineFeeds t + lineFeeds rest :=
  List.count_append

theorem lineFeeds_cons_of_ne {c : Char} (other : c ≠ '\n') (t : Text) :
    lineFeeds (c :: t) = lineFeeds t :=
  List.count_cons_of_ne other

theorem lineFeeds_eq_zero {t : Text} (inLine : '\n' ∉ t) : lineFeeds t = 0 :=
  List.count_eq_zero.mpr inLine

/-- The first cut is at the first character of its kind. -/
theorem cutFirst?_eq_some_iff {p : Char → Bool} {t before after : Text} :
    cutFirst? p t = some (before, after) ↔
      ∃ c, p c ∧ t = before ++ c :: after ∧ ∀ x ∈ before, ¬ p x := by
  induction t generalizing before with
  | nil => simp [cutFirst?]
  | cons a t ih =>
    by_cases hit : p a
    · constructor
      · intro cut
        simp only [cutFirst?, List.dropWhile_cons, List.takeWhile_cons, hit, Bool.not_true,
          Bool.false_eq_true, if_false, Option.some.injEq, Prod.mk.injEq] at cut
        obtain ⟨rfl, rfl⟩ := cut
        exact ⟨a, hit, rfl, by simp⟩
      · rintro ⟨c, isHit, split, others⟩
        cases before with
        | nil =>
          obtain ⟨rfl, rfl⟩ := List.cons.inj split
          simp [cutFirst?, hit]
        | cons b before =>
          obtain ⟨rfl, -⟩ := List.cons.inj split
          exact absurd hit (others a List.mem_cons_self)
    · have step : cutFirst? p (a :: t) = (cutFirst? p t).map fun cut => (a :: cut.1, cut.2) := by
        simp only [cutFirst?, List.dropWhile_cons, List.takeWhile_cons, hit, Bool.not_false,
          if_true]
        split <;> rfl
      rw [step, Option.map_eq_some_iff]
      constructor
      · rintro ⟨⟨before', after'⟩, cut, same⟩
        obtain ⟨rfl, rfl⟩ := Prod.mk.inj same
        obtain ⟨c, isHit, rfl, others⟩ := ih.mp cut
        exact ⟨c, isHit, rfl, List.forall_mem_cons.mpr ⟨hit, others⟩⟩
      · rintro ⟨c, isHit, split, others⟩
        cases before with
        | nil =>
          obtain ⟨rfl, -⟩ := List.cons.inj split
          exact absurd isHit hit
        | cons b before =>
          obtain ⟨rfl, rfl⟩ := List.cons.inj split
          refine ⟨(before, after), ih.mpr ⟨c, isHit, rfl, ?_⟩, rfl⟩
          exact fun x member => others x (List.mem_cons_of_mem a member)

theorem cutFirst?_eq_none_iff {p : Char → Bool} {t : Text} :
    cutFirst? p t = none ↔ ∀ x ∈ t, ¬ p x := by
  unfold cutFirst?
  split
  · next nothing =>
    simpa [List.dropWhile_eq_nil_iff] using nothing
  · next c after found =>
    have member : c ∈ t := (List.dropWhile_suffix _).subset (found ▸ List.mem_cons_self)
    have hit := List.head?_dropWhile_not (fun x => !p x) t
    rw [found] at hit
    constructor
    · simp
    · intro none
      simp [none c member] at hit

/-- A text is cut at the first occurrence of one character. -/
theorem cutFirst?_beq_eq_some_iff {a : Char} {t before after : Text} :
    cutFirst? (· == a) t = some (before, after) ↔ t = before ++ a :: after ∧ a ∉ before := by
  rw [cutFirst?_eq_some_iff]
  constructor
  · rintro ⟨c, hit, split, others⟩
    obtain rfl : c = a := eq_of_beq hit
    exact ⟨split, fun member => others c member (beq_self_eq_true c)⟩
  · rintro ⟨split, absent⟩
    refine ⟨a, beq_self_eq_true a, split, ?_⟩
    intro c member hit
    exact ne_of_mem_of_not_mem member absent (eq_of_beq hit)

/-- A text is cut at the last occurrence of one character. -/
theorem cutLast?_beq_eq_some_iff {a : Char} {t before after : Text} :
    cutLast? (· == a) t = some (before, after) ↔ t = before ++ a :: after ∧ a ∉ after := by
  rw [cutLast?, Option.map_eq_some_iff]
  constructor
  · rintro ⟨⟨after', before'⟩, cut, same⟩
    obtain ⟨rfl, rfl⟩ := Prod.mk.inj same
    obtain ⟨split, absent⟩ := cutFirst?_beq_eq_some_iff.mp cut
    rw [← List.reverse_reverse t, split]
    simpa using absent
  · rintro ⟨rfl, absent⟩
    refine ⟨(after.reverse, before.reverse), ?_, by simp⟩
    exact cutFirst?_beq_eq_some_iff.mpr ⟨by simp, by simpa using absent⟩

section Replace

variable {a b c : Char} {t : Text}

theorem mem_replaceChar_iff :
    c ∈ t.replaceChar a b ↔ c ∈ t ∧ c ≠ a ∨ c = b ∧ a ∈ t := by
  rw [replaceChar, List.mem_map]
  constructor
  · rintro ⟨x, member, rfl⟩
    by_cases replaced : x = a
    · subst replaced
      simp [member]
    · simp [replaced, member]
  · rintro (⟨member, other⟩ | ⟨rfl, member⟩)
    · exact ⟨c, member, if_neg other⟩
    · exact ⟨a, member, if_pos rfl⟩

theorem replaceChar_eq_self (absent : a ∉ t) : t.replaceChar a b = t := by
  refine (List.map_congr_left fun c member => ?_).trans (List.map_id t)
  exact if_neg (ne_of_mem_of_not_mem member absent)

theorem length_replaceChar : (t.replaceChar a b).length = t.length :=
  List.length_map _

end Replace

/-- The text up to its first white space is cut off there. -/
theorem firstWord_append {word rest : Text} {c : Char} (blank : isBlank c)
    (others : ∀ x ∈ word, ¬ isBlank x) : firstWord (word ++ c :: rest) = word := by
  rw [firstWord, List.takeWhile_append_of_pos (by simpa using others), List.takeWhile_cons_of_neg]
  · simp
  · simp [blank]

theorem firstWord_eq_self {t : Text} (none : ∀ x ∈ t, ¬ isBlank x) : firstWord t = t := by
  simpa [firstWord, List.takeWhile_eq_self_iff] using none

theorem exists_trimRight (t : Text) : ∃ rest, t = trimRight t ++ rest := by
  refine ⟨(t.reverse.takeWhile isBlank).reverse, ?_⟩
  rw [trimRight, ← List.reverse_append, List.takeWhile_append_dropWhile, List.reverse_reverse]

theorem exists_trimLeft (t : Text) : ∃ gap, (∀ c ∈ gap, isBlank c) ∧ t = gap ++ trimLeft t :=
  ⟨t.takeWhile isBlank, List.all_eq_true.mp List.all_takeWhile,
    List.takeWhile_append_dropWhile.symm⟩

/-- A trimmed text does not start with white space. -/
theorem trim_ne_cons_of_isBlank {t rest : Text} {c : Char} (blank : isBlank c) :
    trim t ≠ c :: rest := by
  intro starts
  obtain ⟨rest', split⟩ := exists_trimRight (trimLeft t)
  rw [trim] at starts
  rw [starts, trimLeft] at split
  have first := List.head?_dropWhile_not isBlank t
  rw [split] at first
  simp [blank] at first

/-- A trimmed text does not end with white space. -/
theorem trim_ne_append_of_isAllBlank {t front gap : Text} (ne_nil : gap ≠ [])
    (blank : isAllBlank gap) : trim t ≠ front ++ gap := by
  intro ends
  have last : ∀ c ∈ (trim t).getLast?, ¬ isBlank c := by
    intro c found
    rw [trim, trimRight, List.getLast?_reverse] at found
    have first := List.head?_dropWhile_not isBlank (trimLeft t).reverse
    rw [Option.mem_def.mp found] at first
    simpa using first
  obtain rfl | ⟨rest, c, rfl⟩ := List.eq_nil_or_concat gap
  · exact ne_nil rfl
  · rw [ends, List.concat_eq_append, ← List.append_assoc] at last
    exact last c (by simp) (List.all_eq_true.mp blank c (by simp))

/-- Nothing remains of white space. -/
theorem trim_eq_nil_iff {t : Text} : trim t = [] ↔ isAllBlank t := by
  rw [trim, trimRight, List.reverse_eq_nil_iff, List.dropWhile_eq_nil_iff, trimLeft, isAllBlank,
    List.all_eq_true]
  constructor
  · intro blank
    rw [← List.dropWhile_eq_nil_iff]
    cases rest : t.dropWhile isBlank with
    | nil => rfl
    | cons c after =>
      have first := List.head?_dropWhile_not isBlank t
      rw [rest] at first
      have hit := blank c (by rw [rest]; simp)
      simp [hit] at first
  · intro blank c member
    exact blank c ((List.dropWhile_suffix _).subset (List.mem_reverse.mp member))

theorem isAllBlank_eq_false_of_trim_ne_nil {t : Text} (rest : trim t ≠ []) :
    isAllBlank t = false :=
  Bool.eq_false_iff.mpr fun blank => rest (trim_eq_nil_iff.mpr blank)

theorem trimRight_append (t rest : Text) :
    trimRight (t ++ rest) =
      if (trimRight rest).isEmpty then trimRight t else t ++ trimRight rest := by
  simp only [trimRight, List.reverse_append, List.dropWhile_append, List.isEmpty_reverse]
  split_ifs with nothing
  · rfl
  · rw [List.reverse_append, List.reverse_reverse]

theorem trimRight_eq_self {t : Text} (visible : ∀ c ∈ t.getLast?, ¬ isBlank c) :
    trimRight t = t := by
  rcases List.eq_nil_or_concat t with rfl | ⟨front, last, rfl⟩
  · rfl
  · have solid : isBlank last = false := by simpa using visible
    simp [trimRight, List.dropWhile_cons_of_neg, solid]

/-- Nothing is trimmed away from a text that starts and ends with no white space, and from what
follows it only the end. -/
theorem trim_append {t : Text} (rest : Text) (ne_nil : t ≠ [])
    (first : ∀ c ∈ t.head?, ¬ isBlank c) (last : ∀ c ∈ t.getLast?, ¬ isBlank c) :
    trim (t ++ rest) = t ++ trimRight rest := by
  obtain ⟨c, tail, rfl⟩ := List.exists_cons_of_ne_nil ne_nil
  have solid : isBlank c = false := by simpa using first
  have left : trimLeft (c :: tail ++ rest) = c :: tail ++ rest := by
    rw [List.cons_append, trimLeft, List.dropWhile_cons_of_neg (by simp [solid])]
  rw [trim, left, trimRight_append, trimRight_eq_self last]
  split_ifs with nothing
  · rw [List.isEmpty_iff.mp nothing, List.append_nil]
  · rfl

/-- A trimmed text neither starts nor ends with white space. -/
theorem not_isBlank_ends_trim (t : Text) :
    (∀ c ∈ (trim t).head?, ¬ isBlank c) ∧ ∀ c ∈ (trim t).getLast?, ¬ isBlank c := by
  constructor
  · intro c first blank
    obtain ⟨rest, starts⟩ := List.head?_eq_some_iff.mp first
    exact trim_ne_cons_of_isBlank blank starts
  · intro c last blank
    obtain ⟨front, ends⟩ := List.getLast?_eq_some_iff.mp last
    have single : isAllBlank [c] := by simp [isAllBlank, blank]
    exact trim_ne_append_of_isAllBlank (List.cons_ne_nil c []) single ends

theorem trim_eq_self_iff {t : Text} :
    trim t = t ↔ (∀ c ∈ t.head?, ¬ isBlank c) ∧ ∀ c ∈ t.getLast?, ¬ isBlank c := by
  constructor
  · intro trimmed
    have ends := not_isBlank_ends_trim t
    rwa [trimmed] at ends
  · rintro ⟨first, last⟩
    by_cases nothing : t = []
    · subst nothing
      rfl
    · have whole := trim_append [] nothing first last
      simpa [trimRight] using whole

/-- Trimming twice is trimming once. -/
theorem trim_trim (t : Text) : trim (trim t) = trim t :=
  trim_eq_self_iff.mpr (not_isBlank_ends_trim t)

theorem trim_eq_self {t : Text} (solid : ∀ c ∈ t, ¬ isBlank c) : trim t = t :=
  trim_eq_self_iff.mpr ⟨fun c found => solid c (List.mem_of_head? found),
    fun c found => solid c (List.mem_of_getLast? found)⟩

theorem isAllBlank_append (t rest : Text) :
    isAllBlank (t ++ rest) = (isAllBlank t && isAllBlank rest) :=
  List.all_append

theorem trimLeft_append (t rest : Text) :
    trimLeft (t ++ rest) = if (trimLeft t).isEmpty then trimLeft rest else trimLeft t ++ rest :=
  List.dropWhile_append

/-- White space at the end is trimmed away. -/
theorem trim_append_blank {gap : Text} (t : Text) (blank : ∀ c ∈ gap, isBlank c) :
    trim (t ++ gap) = trim t := by
  have nothing : trimRight gap = [] :=
    List.reverse_eq_nil_iff.mpr (List.dropWhile_eq_nil_iff.mpr fun c member =>
      blank c (List.mem_reverse.mp member))
  have nothing' : trimLeft gap = [] := List.dropWhile_eq_nil_iff.mpr blank
  rw [trim, trim, trimLeft_append]
  split_ifs with allBlank
  · rw [nothing', List.isEmpty_iff.mp allBlank]
  · rw [trimRight_append, nothing, if_pos List.isEmpty_nil]

/-- The words on both sides of some white space. -/
theorem words_append_gap {gap : Text} (before after : Text) (ne_nil : gap ≠ [])
    (blank : ∀ c ∈ gap, isBlank c) :
    words (before ++ gap ++ after) = words before ++ words after := by
  induction gap generalizing before with
  | nil => exact absurd rfl ne_nil
  | cons c gap ih =>
    obtain ⟨hit, others⟩ := List.forall_mem_cons.mp blank
    have cut : words (before ++ c :: (gap ++ after)) = words before ++ words (gap ++ after) := by
      rw [words, List.splitOnP_append_cons before (gap ++ after) hit, List.filter_append]
      rfl
    rw [List.append_assoc, List.cons_append, cut]
    by_cases last : gap = []
    · rw [last, List.nil_append]
    · have later := ih [] last others
      rw [List.nil_append] at later
      rw [later]
      rfl

theorem words_blank_append {gap : Text} (blank : ∀ c ∈ gap, isBlank c) (t : Text) :
    words (gap ++ t) = words t := by
  by_cases nothing : gap = []
  · rw [nothing, List.nil_append]
  · exact words_append_gap [] t nothing blank

theorem words_append_blank {gap : Text} (t : Text) (blank : ∀ c ∈ gap, isBlank c) :
    words (t ++ gap) = words t := by
  by_cases nothing : gap = []
  · rw [nothing, List.append_nil]
  · have cut := words_append_gap t [] nothing blank
    rw [List.append_nil] at cut
    rw [cut]
    exact List.append_nil _

theorem words_eq_singleton {word : Text} (ne_nil : word ≠ []) (solid : ∀ c ∈ word, ¬ isBlank c) :
    words word = [word] := by
  rw [words, List.splitOnP_eq_singleton fun c member => Bool.eq_false_iff.mpr (solid c member)]
  simp [ne_nil]

/-- What stands in front of the first cut belongs to the first part. -/
theorem splitOn_append_of_not_mem {a : Char} {front : Text} (absent : a ∉ front) (t : Text) :
    List.splitOn a (front ++ t) = (List.splitOn a t).modifyHead (front ++ ·) := by
  induction front with
  | nil => exact (congrFun List.modifyHead_id _).symm
  | cons c front ih =>
    obtain ⟨other, absent'⟩ := not_or.mp (mt List.mem_cons.mpr absent)
    rw [List.cons_append, List.splitOn_cons_eq_if_modifyHead, if_neg (by simpa using Ne.symm other),
      ih absent', List.modifyHead_modifyHead]
    rfl

/-- The parts of a text hold none of the characters that it is cut at. -/
theorem not_of_mem_splitOnP {p : Char → Bool} {t part : Text} (member : part ∈ t.splitOnP p) :
    ∀ c ∈ part, ¬ p c := by
  induction t generalizing part with
  | nil =>
    obtain rfl := List.mem_singleton.mp member
    exact fun c inside => absurd inside List.not_mem_nil
  | cons a t ih =>
    rw [List.splitOnP_cons_eq_if_modifyHead] at member
    split_ifs at member with hit
    · rcases List.mem_cons.mp member with rfl | later
      · exact fun c inside => absurd inside List.not_mem_nil
      · exact ih later
    · cases parts : t.splitOnP p with
      | nil => exact absurd parts (List.splitOnP_ne_nil p t)
      | cons first others =>
        rw [parts, List.modifyHead_cons] at member
        rw [parts] at ih
        rcases List.mem_cons.mp member with rfl | later
        · exact List.forall_mem_cons.mpr ⟨hit, ih List.mem_cons_self⟩
        · exact ih (List.mem_cons_of_mem first later)

theorem solid_of_mem_words {t word : Text} (member : word ∈ words t) : ∀ c ∈ word, ¬ isBlank c :=
  not_of_mem_splitOnP (List.mem_filter.mp member).1

section OneLine

variable {t : Text}

theorem inLine_of_solid (solid : ∀ c ∈ t, ¬ isBlank c) : '\n' ∉ t :=
  fun member => solid '\n' member (by decide)

/-- A literal is taken apart without decoding it, so that its letters are compared fast. -/
theorem inLine_ofList {letters : Text} (inLine : '\n' ∉ letters) :
    '\n' ∉ (String.ofList letters).toList := by
  rwa [String.toList_ofList]

theorem inLine_ofNat (n : Nat) : '\n' ∉ ofNat n := by
  intro member
  exact absurd (Nat.isDigit_of_mem_toDigits (by decide) (by decide) member) (by decide)

end OneLine

end DocAudit.Text
