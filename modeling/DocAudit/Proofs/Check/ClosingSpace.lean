import DocAudit.Proofs.Check.Independence
import DocAudit.Proofs.Comment.ClosingEvents

/-!
White space before the closing mark of a comment makes no difference to what is reported, except
where a tag holds the last word before the mark.
-/

set_option autoImplicit false

namespace DocAudit.Check

open Comment (Event EndsInText IsDocComment MarkApart)

variable {s : Subject}

section Argument

variable {gap : Text}

private theorem isAllBlank_padded (argument : Text) (blank : ∀ c ∈ gap, Text.isBlank c) :
    Text.isAllBlank (argument ++ gap) = argument.isAllBlank := by
  have allBlank : gap.isAllBlank := List.all_eq_true.mpr blank
  rw [Text.isAllBlank_append, allBlank, Bool.and_true]

private theorem judgeReference_padded (tag argument : Text) (blank : ∀ c ∈ gap, Text.isBlank c) :
    judgeReference s tag (argument ++ gap) = judgeReference s tag argument := by
  simp only [judgeReference, Reference.check, Text.trim_append_blank argument blank]

/-- White space at the end of an argument has no part in the verdict on its tag. -/
theorem judge_padded (name argument : Text) (blank : ∀ c ∈ gap, Text.isBlank c) :
    judge s name (argument ++ gap) = judge s name argument := by
  have allBlank := isAllBlank_padded argument blank
  have trimmed := Text.trim_append_blank argument blank
  unfold judge
  cases TagName.ofText? name with
  | none => rfl
  | some tag =>
    cases tag with
    | author | version => simp only [judgeTypeText, judgeText, allBlank]
    | since | deprecated => simp only [judgeText, allBlank]
    | returns => simp only [judgeReturn, judgeText, allBlank]
    | param => simp only [judgeParam, trimmed]
    | link | value => simp only [judgeLink, allBlank, judgeReference_padded _ _ blank]
    | see => simp only [judgeSee, trimmed]
    | throws => simp only [judgeThrows, trimmed]

/-- Texts that differ in white space only count alike. -/
private theorem realCharacters_eq {t t' : Text} (same : t.SameVisible t') :
    realCharacters t = realCharacters t' := by
  have visible : ∀ t : Text, realCharacters t =
      (t.filter fun c => !Text.isBlank c).countP fun c => !(c == '/' || c == '*') := by
    intro t
    rw [realCharacters, List.countP_filter]
    refine List.countP_congr fun c _ => ?_
    simp only [Bool.not_eq_true', Bool.or_eq_false_iff, Bool.and_eq_true]
    tauto
  rw [visible t, visible t', same]

end Argument

section Events

variable {e e' : Event} {events events' : List Event}

/-- What tells alike events alike tells alike lists of them alike. -/
private theorem map_eq {α : Type} {f : Event → α} (same : ∀ {e e'}, e.Alike e' → f e = f e')
    (alike : List.Forall₂ Event.Alike events events') : events.map f = events'.map f := by
  induction alike with
  | nil => rfl
  | cons first _ ih => rw [List.map_cons, List.map_cons, same first, ih]

private theorem judgeEvent_alike (alike : e.Alike e') : s.judgeEvent e = s.judgeEvent e' := by
  cases alike with
  | tag line name argument blank => simp only [Subject.judgeEvent, judge_padded _ _ blank]
  | _ => rfl

private theorem judgeInheritance_alike (alike : e.Alike e') :
    s.judgeInheritance e = s.judgeInheritance e' := by
  cases alike <;> rfl

private theorem length_alike (alike : e.Alike e') : s.length e = s.length e' := by
  cases alike with
  | commentText same => exact realCharacters_eq same
  | @tag line name argument gap blank =>
    have same : Text.SameVisible argument (argument ++ gap) := by
      have gap := Text.sameVisible_gap blank argument []
      rwa [List.append_nil, List.append_nil] at gap
    simp only [Subject.length, judge_padded _ _ blank, realCharacters_eq same]
  | _ => rfl

private theorem documents_alike (alike : e.Alike e') : s.documents e = s.documents e' := by
  cases alike with
  | tag line name argument blank => simp only [Subject.documents, judge_padded _ _ blank]
  | _ => rfl

private theorem omissions_alike (alike : List.Forall₂ Event.Alike events events') :
    s.omissions events = s.omissions events' := by
  have lengths : events.map s.length = events'.map s.length := map_eq length_alike alike
  have documents : events.filterMap s.documents = events'.filterMap s.documents := by
    have same := congrArg (List.filterMap id) (map_eq (documents_alike (s := s)) alike)
    rwa [List.filterMap_map, List.filterMap_map, Function.id_comp] at same
  simp only [Subject.omissions, lengths, documents]

private theorem startLine_alike (alike : List.Forall₂ Event.Alike events events') :
    startLine events = startLine events' := by
  rw [startLine, startLine]
  generalize 0 = line
  induction alike generalizing line with
  | nil => rfl
  | cons first _ ih => cases first <;> exact ih _

private theorem inherits_alike (alike : List.Forall₂ Event.Alike events events') :
    inherits events = inherits events' := by
  induction alike with
  | nil => rfl
  | cons first _ ih =>
    rw [inherits, inherits, List.any_cons, List.any_cons]
    refine congrArg₂ _ ?_ ih
    cases first <;> rfl

private theorem judgeEvents_alike (complete : Bool) {seen seen' : List Event}
    (before : List.Forall₂ Event.Alike seen seen')
    (alike : List.Forall₂ Event.Alike events events') :
    s.judgeEvents complete seen events = s.judgeEvents complete seen' events' := by
  induction alike generalizing seen seen' with
  | nil => rfl
  | cons first _ ih =>
    have exits : ∀ {e e' : Event}, e.Alike e' → (e = .exit) = (e' = .exit) := by
      intro e e' alike
      cases alike <;> simp
    have more := List.rel_append before (.cons first .nil)
    rw [Subject.judgeEvents, Subject.judgeEvents, ih more, judgeEvent_alike first,
      omissions_alike before, startLine_alike before]
    simp only [exits first]

/-- Alike events are judged alike. -/
private theorem judgeComment_alike {comment comment' : Text}
    (alike : List.Forall₂ Event.Alike (Comment.events comment) (Comment.events comment')) :
    s.judgeComment comment = s.judgeComment comment' := by
  have inheritance : (Comment.events comment).flatMap s.judgeInheritance =
      (Comment.events comment').flatMap s.judgeInheritance := by
    rw [List.flatMap_def, List.flatMap_def, map_eq judgeInheritance_alike alike]
  rw [Subject.judgeComment, Subject.judgeComment, inheritance, inherits_alike alike,
    judgeEvents_alike _ .nil alike]

end Events

private theorem findings_withComment (s : Subject) (comment : DocComment) (isOverride : Bool) :
    (s.withComment comment isOverride).findings =
      if (s.withComment comment isOverride).isChecked then
        (s.withComment comment isOverride).judgeComment comment.text
      else [] := rfl

/-- A space before the closing mark changes nothing that is reported where the mark is a token by
itself, and where the space belongs to the text of the comment and not to a tag. -/
theorem findings_space_before_mark (s : Subject) (line : Nat) (isOverride : Bool) (body : Text)
    (harmless : MarkApart body ∨ EndsInText (Comment.events (body ++ " */"))) :
    (s.withComment ⟨body ++ "*/", line⟩ isOverride).findings =
      (s.withComment ⟨body ++ " */", line⟩ isOverride).findings := by
  have same : (s.withComment ⟨body ++ "*/", line⟩ isOverride).SameRules
      (s.withComment ⟨body ++ " */", line⟩ isOverride) :=
    ⟨⟨_, rfl⟩, rfl, fun _ => rfl, rfl⟩
  rw [findings_withComment, findings_withComment, same.isChecked, same.judgeComment rfl,
    judgeComment_alike (Comment.events_space_alike harmless)]

/-- A comment that ends with an inline tag, up to the mark. -/
def endsWithInlineTag : Text :=
  "/** Documents the area well.\n@return the area in {@code int}"

/-- Behind an inline tag the mark is a token by itself. -/
theorem findings_space_behind_inline_tag :
    (halfDocumented.withComment ⟨endsWithInlineTag ++ "*/", 1⟩ false).findings =
      (halfDocumented.withComment ⟨endsWithInlineTag ++ " */", 1⟩ false).findings := by
  have apart : MarkApart endsWithInlineTag :=
    ⟨⟨.word, "*/", 1⟩, by decide +kernel, rfl⟩
  exact findings_space_before_mark halfDocumented 1 false endsWithInlineTag (Or.inl apart)

/-- A class whose comments are judged below. -/
def documentedShop : Subject where
  declaration := {
    kind := .classType, name := "Shop", visibility := .everywhere, owner := "Shop"
    outermost := "Shop", line := 3, comment := none, parameters := [], typeVariables := []
    throws := [], returnType := none, hasSupertypes := false, annotations := [] }
  scope := ⟨[], "Shop", []⟩
  table := TypeTable.empty.declare "Shop" .classType
  settings := {}
  isOverride := false

/-- A comment that ends with a section tag, up to the mark. -/
def endsWithSectionTag : Text :=
  "/** Documents the shop well.\n@since 1.0"

/-- In a section tag the last word is lost to the argument when the mark touches it. -/
theorem findings_mark_touching_argument :
    IsDocComment (endsWithSectionTag ++ "*/") ∧ IsDocComment (endsWithSectionTag ++ " */") ∧
      (documentedShop.withComment ⟨endsWithSectionTag ++ "*/", 1⟩ false).findings =
        [⟨1, .malformedSince⟩] ∧
      (documentedShop.withComment ⟨endsWithSectionTag ++ " */", 1⟩ false).findings = [] := by
  refine ⟨⟨?_, ?_, ?_, ?_⟩, ⟨?_, ?_, ?_, ?_⟩, ?_, ?_⟩ <;> decide +kernel

end DocAudit.Check
