import DocAudit.Proofs.Check.Completeness
import DocAudit.Proofs.Check.Findings
import Mathlib.Algebra.Order.BigOperators.Group.List
import Mathlib.Algebra.Order.Group.Nat

/-!
The length of a comment. A character counts at most once, whatever text, tag or nested tag it stands
in, so the length is never more than the comment has, and in a comment without tags it is just that.
-/

set_option autoImplicit false

namespace DocAudit.Check

open Comment (Event Place OpenTag Token IsDocComment tags)

@[simp] theorem realCharacters_nil : realCharacters [] = 0 := rfl

@[simp] theorem realCharacters_append (text rest : Text) :
    realCharacters (text ++ rest) = realCharacters text + realCharacters rest :=
  List.countP_append

section Events

variable {place next : Place} {tag : OpenTag} {t u : Token} {now : List Event}

/-- The real characters of a text inside a comment or of a tag's argument. -/
def realIn : Event → Nat
  | .commentText text => realCharacters text
  | .tag _ _ argument => realCharacters argument
  | _ => 0

/-- The real characters of all texts and arguments among the events. -/
def realTotal (events : List Event) : Nat :=
  (events.map realIn).sum

/-- The real characters that a reader has read and not yet reported. -/
def held : Place → Nat
  | .outside _ => 0
  | .comment pending => realCharacters pending
  | .sectionTag tag => realCharacters tag.argument
  | .inlineTag tag _ none => realCharacters tag.argument
  | .inlineTag tag _ (some around) => realCharacters tag.argument + realCharacters around.argument

@[simp] theorem realTotal_nil : realTotal [] = 0 := rfl

@[simp] theorem realTotal_cons (e : Event) (events : List Event) :
    realTotal (e :: events) = realIn e + realTotal events :=
  List.sum_cons

@[simp] theorem realTotal_append (events more : List Event) :
    realTotal (events ++ more) = realTotal events + realTotal more := by
  simp [realTotal]

@[simp] theorem realIn_event (tag : OpenTag) : realIn tag.event = realCharacters tag.argument := rfl

@[simp] theorem realTotal_plain (pending : Text) : realTotal (Event.plain pending) = 0 := by
  unfold Event.plain
  split <;> rfl

@[simp] theorem realTotal_inComment (pending : Text) :
    realTotal (Event.inComment pending) = realCharacters pending := by
  cases pending with
  | nil => rfl
  | cons c pending => simp [Event.inComment, realIn]

@[simp] theorem realTotal_close (pending : Text) :
    realTotal (Event.close pending) = realCharacters pending := by
  rw [Event.close, realTotal_append, realTotal_inComment]
  rfl

private theorem realTotal_finish (place : Place) : realTotal place.finish ≤ held place := by
  cases place with
  | outside pending => simp [Place.finish, held]
  | comment pending => simp [Place.finish, held]
  | sectionTag tag => simp [Place.finish, held]
  | inlineTag tag depth around => cases around <;> simp [Place.finish, held]

/-- What is reported after a step and what is still held back are no more than `real`. -/
private def Within (real : Nat) (result : List Event × Place) : Prop :=
  realTotal result.1 + held result.2 ≤ real

private theorem realCharacters_appendTrimmed (tag : OpenTag) (t : Token) :
    realCharacters (tag.appendTrimmed t).argument ≤
      realCharacters tag.argument + realCharacters t.text := by
  unfold OpenTag.appendTrimmed
  split_ifs
  · exact Nat.le_add_right _ _
  · simp [OpenTag.append]

private theorem within_stepOutside (pending : Text) (t : Token) :
    Within (realCharacters t.text) (Place.stepOutside pending t) := by
  unfold Place.stepOutside
  split_ifs
  · simp [Within, realIn, held]
  · simp [Within, realIn, held]
  · simp [Within, held]

private theorem within_stepComment (pending : Text) (t : Token) :
    Within (realCharacters pending + realCharacters t.text) (Place.stepComment pending t) := by
  unfold Place.stepComment
  split_ifs
  · simp [Within, held]
  · simp [Within, held]
  · simp [Within, held]

private theorem within_stepSection (tag : OpenTag) (t : Token) :
    Within (realCharacters tag.argument + realCharacters t.text) (Place.stepSection tag t) := by
  have more := realCharacters_appendTrimmed tag t
  unfold Place.stepSection
  split_ifs
  · simp [Within, held, OpenTag.named]
  · simp [Within, held]
  · simp [Within, held, OpenTag.append]
  · simp [Within, held]
  · simpa [Within, held] using more

/-- What an inline tag stands in gets nothing from a token that the tag takes. -/
private theorem held_inlineTag (tag : OpenTag) (depth : Nat) (around : Option OpenTag) :
    held (.inlineTag tag depth around) =
      realCharacters tag.argument + held ((around.map Place.sectionTag).getD (.comment [])) := by
  cases around <;> simp [held]

private theorem within_stepInline (tag : OpenTag) (depth : Nat) (around : Option OpenTag)
    (t : Token) :
    Within (held (.inlineTag tag depth around) + realCharacters t.text)
      (Place.stepInline tag depth around t) := by
  have more := realCharacters_appendTrimmed tag t
  have taken : ∀ before after,
      Within (held (.inlineTag tag before around) + realCharacters t.text)
        ([], .inlineTag (tag.appendTrimmed t) after around) := by
    intro before after
    simp only [Within, realTotal_nil, held_inlineTag]
    omega
  unfold Place.stepInline
  simp only
  split_ifs with star closes
  · simp [Within]
  · cases around with
    | none =>
      have rest := within_stepComment [] t
      simp only [Within, realCharacters_nil, Option.map_none, Option.getD_none, realTotal_cons,
        realIn_event, held] at rest ⊢
      omega
    | some s =>
      have rest := within_stepSection s t
      simp only [Within, Option.map_some, Option.getD_some, realTotal_cons, realIn_event,
        held] at rest ⊢
      omega
  · simp [Within, held_inlineTag, OpenTag.named]
  · exact taken depth (depth + 1)
  · cases depth with
    | zero => simp [Within, held_inlineTag]
    | succ depth => exact taken (depth + 1) depth
  · exact taken depth depth

private theorem within_step (place : Place) (t : Token) :
    Within (held place + realCharacters t.text) (place.step t) := by
  cases place with
  | outside pending => simpa [held, Place.step] using within_stepOutside pending t
  | comment pending => exact within_stepComment pending t
  | sectionTag tag => exact within_stepSection tag t
  | inlineTag tag depth around => exact within_stepInline tag depth around t

private theorem within_openInline (opened : place.openInline? t u = some (now, next)) :
    Within (held place) (now, next) := by
  obtain ⟨-, -, ⟨pending, rfl, rfl, rfl⟩ | ⟨tag, rfl, -, rfl, rfl⟩⟩ :=
    Place.cases_of_openInline? opened
  · simp [Within, held]
  · simp [Within, held]

/-- No character is reported twice: the events have no more than was held back and is still read. -/
theorem realTotal_events_le (place : Place) (tokens : List Token) :
    realTotal (place.events tokens) ≤ held place + realCharacters (Token.join tokens) := by
  induction place, tokens using Comment.Place.events.induct with
  | case1 place =>
    rw [Place.events_nil]
    exact Nat.le_add_right_of_le (realTotal_finish place)
  | case2 place t now next step =>
    have one := within_step place t
    have ends := realTotal_finish next
    rw [step] at one
    rw [Place.events_cons (by simp), Place.events_nil, step]
    simp only [Within, realTotal_append, Token.join_cons, Token.join_nil, List.append_nil] at one ⊢
    omega
  | case3 place t u rest now next opened ih =>
    have one := within_openInline opened
    rw [Place.events_of_open opened]
    simp only [Within, realTotal_append, Token.join_cons, realCharacters_append] at one ⊢
    omega
  | case4 place t u rest notOpened now next step ih =>
    have one := within_step place t
    rw [step] at one
    rw [Place.events_cons (by simpa using notOpened), step]
    simp only [Within, realTotal_append, Token.join_cons, realCharacters_append] at one ih ⊢
    omega

/-- The texts and arguments of a text's events have no more real characters than the text. -/
theorem realTotal_le (text : Text) : realTotal (Comment.events text) ≤ realCharacters text := by
  have bound := realTotal_events_le (.outside []) (Token.scan text)
  rwa [Token.join_scan, held, Nat.zero_add] at bound

end Events

section Report

variable {s : Subject} {events seen : List Event} {minimum actual : Nat} {f : Finding}

/-- The characters that count among the events, over text and tags. -/
def Subject.counted (s : Subject) (events : List Event) : Nat :=
  (events.map s.length).sum

private theorem length_le_realIn (e : Event) : s.length e ≤ realIn e := by
  cases e with
  | tag line name argument =>
    simp only [Subject.length, realIn]
    split_ifs
    · exact Nat.le_refl _
    · exact Nat.zero_le _
  | _ => exact Nat.le_refl _

theorem counted_le_realTotal (events : List Event) : s.counted events ≤ realTotal events :=
  List.sum_le_sum fun e _ => length_le_realIn e

private theorem counted_append (before after : List Event) :
    s.counted (before ++ after) = s.counted before + s.counted after := by
  simp [Subject.counted]

private theorem commentTooShort_mem_omissions_iff :
    .commentTooShort minimum actual ∈ s.omissions seen ↔
      minimum = s.settings.minimumLength ∧ actual = s.counted seen ∧ actual < minimum := by
  have total : (seen.map s.length).foldr Nat.add 0 = s.counted seen := rfl
  simp only [Subject.omissions, total, List.mem_append, List.mem_map]
  constructor
  · rintro (((short | noReturn) | ⟨name, -, other⟩) | ⟨ty, -, other⟩)
    · split_ifs at short with less
      · obtain ⟨rfl, rfl⟩ := Violation.commentTooShort.inj (List.mem_singleton.mp short)
        exact ⟨rfl, rfl, less⟩
      · simp at short
    · split_ifs at noReturn <;> simp at noReturn
    · simp at other
    · simp at other
  · rintro ⟨rfl, rfl, less⟩
    rw [if_pos less]
    exact Or.inl (Or.inl (Or.inl List.mem_cons_self))

/-- A comment is reported as too short at one of its ends, with the characters that count up to
there. -/
theorem mem_findings_commentTooShort_iff {comment : DocComment}
    (commented : s.declaration.comment = some comment) :
    (∃ f ∈ s.findings, f.violation = .commentTooShort minimum actual) ↔
      s.isChecked ∧ inherits (Comment.events comment.text) = false ∧ s.isOverride = false ∧
        ∃ before after, Comment.events comment.text = before ++ .exit :: after ∧
          minimum = s.settings.minimumLength ∧ actual = s.counted before ∧ actual < minimum := by
  constructor
  · rintro ⟨f, member, short⟩
    obtain ⟨written, same, checked, found⟩ := mem_findings_iff.mp member
    obtain rfl : comment = written := Option.some.inj (commented.symm.trans same)
    have omitted : f.violation.isOmission := by rw [short]; rfl
    cases found with
    | throws first => exact absurd short (by simp)
    | inheritance inEvents found => simp [isOmission_of_judgeInheritance found] at omitted
    | event inEvents found => simp [isOmission_of_judgeEvent found] at omitted
    | omission split inherited own left =>
      obtain rfl := short
      exact ⟨checked, inherited, own, _, _, split, commentTooShort_mem_omissions_iff.mp left⟩
  · rintro ⟨checked, inherited, own, before, after, split, short⟩
    have left := commentTooShort_mem_omissions_iff.mpr short
    have found := FoundIn.omission split inherited own left
    exact ⟨_, mem_findings_iff.mpr ⟨comment, commented, checked, found⟩, rfl⟩

/-- No comment is said to be longer than it is. The characters that count are at most those of the
whole text, so a text that is too short is reported at its first end, and they are all of them in a
comment without at signs. -/
theorem findings_never_overcount (s : Subject) (comment : DocComment)
    (commented : s.declaration.comment = some comment) :
    (∀ f ∈ s.findings, ∀ minimum actual, f.violation = .commentTooShort minimum actual →
      minimum = s.settings.minimumLength ∧ actual < minimum ∧
        actual ≤ realCharacters comment.text) ∧
    (s.isChecked → s.isOverride = false →
      (∀ tag ∈ tags (Comment.events comment.text), tag.1 ≠ "inheritDoc") →
      .exit ∈ Comment.events comment.text →
      realCharacters comment.text < s.settings.minimumLength →
      ∃ f ∈ s.findings, ∃ actual,
        f.violation = .commentTooShort s.settings.minimumLength actual) ∧
    (IsDocComment comment.text → (∀ t ∈ Token.scan comment.text, ¬ t.isMarker '@') →
      s.counted (Comment.events comment.text) = realCharacters comment.text ∧
      ∀ f ∈ s.findings, ∀ minimum actual, f.violation = .commentTooShort minimum actual →
        actual = realCharacters comment.text) := by
  have bound : ∀ before after, Comment.events comment.text = before ++ .exit :: after →
      s.counted before ≤ realCharacters comment.text := by
    intro before after split
    calc s.counted before
      _ ≤ s.counted (Comment.events comment.text) := by
        rw [split, counted_append]
        exact Nat.le_add_right _ _
      _ ≤ realTotal (Comment.events comment.text) := counted_le_realTotal _
      _ ≤ realCharacters comment.text := realTotal_le _
  refine ⟨fun f member minimum actual short => ?_, fun checked own notInherited ends less => ?_,
    fun doc untagged => ?_⟩
  · obtain ⟨-, -, -, before, after, split, same, rfl, less⟩ :=
      (mem_findings_commentTooShort_iff commented).mp ⟨f, member, short⟩
    exact ⟨same, less, bound before after split⟩
  · obtain ⟨before, after, split⟩ := List.append_of_mem ends
    have complete : inherits (Comment.events comment.text) = false := by
      rw [Bool.eq_false_iff, Ne, inherits_iff]
      rintro ⟨tag, member, named⟩
      exact notInherited tag member named
    have short := Nat.lt_of_le_of_lt (bound before after split) less
    obtain ⟨f, member, violation⟩ := (mem_findings_commentTooShort_iff commented).mpr
      ⟨checked, complete, own, before, after, split, rfl, rfl, short⟩
    exact ⟨f, member, _, violation⟩
  · have events := doc.events_of_untagged untagged
    have all : ∀ more, s.counted (.enter 0 :: .commentText comment.text :: more) =
        realCharacters comment.text + s.counted more := by
      intro more
      simp [Subject.counted, Subject.length]
    refine ⟨by rw [events, all]; rfl, fun f member minimum actual short => ?_⟩
    obtain ⟨-, -, -, before, after, split, -, rfl, -⟩ :=
      (mem_findings_commentTooShort_iff commented).mp ⟨f, member, short⟩
    -- The only end comes after the only text.
    have first : before = [.enter 0, .commentText comment.text] := by
      rw [events] at split
      rcases before with _ | ⟨enter, _ | ⟨text, _ | ⟨other, before⟩⟩⟩
      · simp at split
      · simp at split
      · simp_all
      · simp at split
    rw [first, all]
    rfl

/-- A class with this comment, where fifty characters are asked for. -/
def shopClass (comment : Text) : Subject where
  declaration := {
    kind := .classType, name := "Shop", visibility := .everywhere, owner := "Shop"
    outermost := "Shop", line := 3, comment := some ⟨comment, 1⟩, parameters := []
    typeVariables := [], throws := [], returnType := none, hasSupertypes := false
    annotations := [] }
  scope := ⟨[], "Shop", []⟩
  table := TypeTable.empty.declare "Shop" .classType
  settings := { minimumLength := 50 }
  isOverride := false

/-- Of a comment with tags inside each other the names, braces and at signs do not count; of one
without tags every brace does. -/
theorem findings_never_overcount_shopClass :
    let tagged : Text := "/** A {@link Shop}.\n@since the {@value Shop} start */"
    let untagged : Text := "/** A shop {of sorts}. */"
    realCharacters tagged = 39 ∧ (shopClass tagged).counted (Comment.events tagged) = 18 ∧
      (∃ f ∈ (shopClass tagged).findings, ∃ actual, f.violation = .commentTooShort 50 actual ∧
        actual < 50 ∧ actual ≤ 39) ∧
      IsDocComment untagged ∧ (∀ t ∈ Token.scan untagged, ¬ t.isMarker '@') ∧
      (shopClass untagged).counted (Comment.events untagged) = 15 ∧
      ∀ f ∈ (shopClass untagged).findings, ∀ minimum actual,
        f.violation = .commentTooShort minimum actual → actual = 15 := by
  intro tagged untagged
  have real : realCharacters tagged = 39 := by decide +kernel
  have fewer : (shopClass tagged).counted (Comment.events tagged) = 18 := by decide +kernel
  have doc : IsDocComment untagged :=
    ⟨by decide +kernel, by decide +kernel, by decide +kernel, by decide +kernel⟩
  have noTag : ∀ t ∈ Token.scan untagged, ¬ t.isMarker '@' := by decide +kernel
  have all : realCharacters untagged = 15 := by decide +kernel
  obtain ⟨bounded, reported, -⟩ := findings_never_overcount (shopClass tagged) ⟨tagged, 1⟩ rfl
  obtain ⟨f, member, actual, short⟩ := reported rfl rfl (by decide +kernel) (by decide +kernel)
    (by rw [real]; decide)
  obtain ⟨-, less, within⟩ := bounded f member 50 actual short
  obtain ⟨-, -, exact_⟩ := findings_never_overcount (shopClass untagged) ⟨untagged, 1⟩ rfl
  obtain ⟨counted, same⟩ := exact_ doc noTag
  rw [all] at counted same
  exact ⟨real, fewer, ⟨f, member, actual, short, less, real ▸ within⟩, doc, noTag, counted, same⟩

end Report

end DocAudit.Check
