import DocAudit.Check.Tag
import DocAudit.Proofs.Text
import Mathlib.Tactic.SplitIfs

/-!
What each tag amounts to: which names and arguments document something, and which arguments count.
-/

set_option autoImplicit false

namespace DocAudit

/-- Whether a violation says that a comment leaves something out. -/
def Violation.isOmission : Violation → Bool
  | commentTooShort _ _ | missingReturn | undocumentedParameter _ | undocumentedException _ => true
  | _ => false

namespace Check

namespace Verdict

variable {v : Violation} {d : Documented}

@[simp] theorem counts_refuse : (refuse v).counts = false := rfl

@[simp] theorem counts_accept : accept.counts = true := rfl

@[simp] theorem counts_blame : (blame v).counts = true := rfl

@[simp] theorem counts_document : (document d).counts = true := rfl

@[simp] theorem documents_refuse : (refuse v).documents = none := rfl

@[simp] theorem documents_accept : accept.documents = none := rfl

@[simp] theorem documents_blame : (blame v).documents = none := rfl

@[simp] theorem documents_document : (document d).documents = some d := rfl

@[simp] theorem violation_refuse : (refuse v).violation = some v := rfl

@[simp] theorem violation_accept : accept.violation = none := rfl

@[simp] theorem violation_blame : (blame v).violation = some v := rfl

@[simp] theorem violation_document : (document d).violation = none := rfl

end Verdict

/-- Whether an argument starts with this name and goes on with a description. -/
def describes (argument name : Text) : Bool :=
  let text := argument.trim
  text.firstWord == name && !Text.isAllBlank (text.drop name.length)

private theorem describes_of_cut {argument name description : Text}
    (cut : argument.trim.cutFirst? Text.isBlank = some (name, description)) (name' : Text) :
    describes argument name' = (name == name' && !Text.isAllBlank description) := by
  obtain ⟨c, blank, split, others⟩ := Text.cutFirst?_eq_some_iff.mp cut
  simp only [describes, split, Text.firstWord_append blank others]
  by_cases same : name = name'
  · subst same
    simp [Text.isAllBlank, blank]
  · rw [beq_false_of_ne same, Bool.false_and, Bool.false_and]

private theorem word_ne_nil_of_cut {argument name description : Text}
    (cut : argument.trim.cutFirst? Text.isBlank = some (name, description)) : name ≠ [] := by
  rintro rfl
  obtain ⟨c, blank, split, -⟩ := Text.cutFirst?_eq_some_iff.mp cut
  exact Text.trim_ne_cons_of_isBlank blank split

private theorem describes_of_no_cut {argument : Text}
    (cut : argument.trim.cutFirst? Text.isBlank = none) (name : Text) :
    describes argument name = false := by
  have none := Text.cutFirst?_eq_none_iff.mp cut
  simp only [describes, Text.firstWord_eq_self none]
  by_cases same : Text.trim argument = name
  · simp [same, Text.isAllBlank]
  · simp [same]

section Documents

variable {s : Subject} {name argument : Text} {d : Documented}

@[simp] private theorem documents_judgeText {missing : Violation} :
    (judgeText missing argument).documents = none := by
  unfold judgeText
  split_ifs <;> rfl

@[simp] private theorem documents_judgeTypeText {illegal missing : Violation} :
    (judgeTypeText s illegal missing argument).documents = none := by
  unfold judgeTypeText
  split_ifs
  · exact documents_judgeText
  · rfl

@[simp] private theorem documents_judgeReference {tag : Text} :
    (judgeReference s tag argument).documents = none := by
  unfold judgeReference
  split_ifs
  · split <;> rfl
  · rfl

@[simp] private theorem documents_judgeLink {tag : Text} {missing : Violation} :
    (judgeLink s tag missing argument).documents = none := by
  unfold judgeLink
  split_ifs
  · rfl
  · exact documents_judgeReference

@[simp] private theorem documents_judgeSee : (judgeSee s argument).documents = none := by
  unfold judgeSee
  simp only
  split
  · rfl
  · rfl
  · rfl
  · exact documents_judgeReference

@[simp] private theorem documents_judgeReturn :
    (judgeReturn s argument).documents = some .result := rfl

private theorem documents_judgeParam :
    (judgeParam s argument).documents = some d ↔ ∃ p, d = .parameter p ∧
      s.allowsParam ∧ p ∈ s.parameterNames ∧ describes argument p := by
  unfold judgeParam
  simp only
  split_ifs with allowed
  · split
    · next cut =>
      simp [describes_of_no_cut cut]
    · next name description cut =>
      have named := word_ne_nil_of_cut cut
      simp only [describes_of_cut cut]
      split_ifs with malformed known
      · simp_all
      · have described : !Text.isAllBlank description := by simp_all
        have known : name ∈ s.parameterNames := by simpa using known
        simp only [Verdict.documents_document, Option.some.injEq, described, Bool.and_true,
          beq_iff_eq]
        constructor
        · rintro rfl
          exact ⟨name, rfl, allowed, known, rfl⟩
        · rintro ⟨p, rfl, -, -, rfl⟩
          rfl
      · have unknown : name ∉ s.parameterNames := by simpa using known
        simp only [Verdict.documents_blame, reduceCtorEq, Bool.and_eq_true, beq_iff_eq, false_iff]
        rintro ⟨p, -, -, member, rfl, -⟩
        exact unknown member
  · simp [allowed]

private theorem resolve?_nil : s.scope.resolve? s.table [] = none := by
  have split : JavaType.splitSuffix (Text.trim []) = ([], 0) := rfl
  simp [Scope.resolve?, Scope.element?, split]

private theorem documents_judgeThrows {tag : Text} :
    (judgeThrows s tag argument).documents = some d ↔ ∃ ty, d = .exception ty ∧
      s.kind.isCallable ∧ s.scope.resolve? s.table argument.trim.firstWord = some ty ∧
      (s.table.isUnchecked ty ∨ ty ∈ s.throws.1) := by
  unfold judgeThrows
  simp only
  split_ifs with notCallable empty
  · simp_all
  · have nothing : argument.trim.firstWord = [] := by simp_all [Text.firstWord]
    simp [nothing, resolve?_nil]
  · have callable : s.kind.isCallable := by simpa using notCallable
    split
    · next unresolved => simp [unresolved]
    · next ty resolved =>
      rw [resolved]
      split_ifs with known
      · have known : s.table.isUnchecked ty ∨ ty ∈ s.throws.1 := by simpa using known
        simp only [Verdict.documents_document, Option.some.injEq]
        constructor
        · rintro rfl
          exact ⟨ty, rfl, callable, rfl, known⟩
        · rintro ⟨ty', rfl, -, rfl, -⟩
          rfl
      · have unknown : ¬ (s.table.isUnchecked ty ∨ ty ∈ s.throws.1) := by simpa using known
        simp only [Verdict.documents_blame, reduceCtorEq, Option.some.injEq, false_iff]
        rintro ⟨ty', -, -, rfl, known'⟩
        exact unknown known'

end Documents

namespace TagName

variable {name : Text} {a b : TagName} {c : Prop} [Decidable c] {r : Option TagName}

private theorem ite_of_ne (other : a ≠ b) :
    (if c then some a else r) = some b ↔ ¬ c ∧ r = some b := by
  by_cases h : c
  · simp [h, other]
  · simp [h]

private theorem ite_of_not_rest (others : r ≠ some b) :
    (if c then some b else r) = some b ↔ c := by
  by_cases h : c
  · simp [h]
  · simp [h, others]

private theorem ite_ne (other : a ≠ b) (others : r ≠ some b) :
    (if c then some a else r) ≠ some b := by
  by_cases h : c
  · simp [h, other]
  · simp [h, others]

theorem ofText?_eq_returns : ofText? name = some .returns ↔ name = "return" := by
  unfold ofText?
  iterate 4 rw [ite_of_ne (by nofun)]
  rw [ite_of_not_rest]
  · constructor
    · rintro ⟨-, -, -, -, same⟩
      exact same
    · rintro rfl
      decide
  · repeat refine ite_ne (by nofun) ?_
    exact nofun

theorem ofText?_eq_param : ofText? name = some .param ↔ name = "param" := by
  unfold ofText?
  iterate 5 rw [ite_of_ne (by nofun)]
  rw [ite_of_not_rest]
  · constructor
    · rintro ⟨-, -, -, -, -, same⟩
      exact same
    · rintro rfl
      decide
  · repeat refine ite_ne (by nofun) ?_
    exact nofun

theorem ofText?_eq_throws :
    ofText? name = some .throws ↔ name = "throws" ∨ name = "exception" := by
  unfold ofText?
  iterate 9 rw [ite_of_ne (by nofun)]
  rw [ite_of_not_rest (by nofun)]
  constructor
  · rintro ⟨-, -, -, -, -, -, -, -, -, same⟩
    rw [Bool.or_eq_true, decide_eq_true_iff, decide_eq_true_iff] at same
    exact same
  · rintro (rfl | rfl)
    · decide
    · decide

end TagName

section Judge

variable {s : Subject} {name argument : Text}

/-- Exactly the return tags document the result, right or wrong. -/
theorem documents_result_iff :
    (judge s name argument).documents = some .result ↔ name = "return" := by
  rw [← TagName.ofText?_eq_returns, judge]
  cases TagName.ofText? name with
  | none => simp
  | some tag => cases tag <;> simp [documents_judgeParam, documents_judgeThrows]

/-- Exactly the parameter tags that may stand here and describe a declared name document it. -/
theorem documents_parameter_iff {p : Text} :
    (judge s name argument).documents = some (.parameter p) ↔
      name = "param" ∧ s.allowsParam ∧ p ∈ s.parameterNames ∧ describes argument p := by
  rw [← TagName.ofText?_eq_param, judge]
  cases TagName.ofText? name with
  | none => simp
  | some tag => cases tag <;> simp [documents_judgeParam, documents_judgeThrows]

/-- Exactly the exception tags that may stand here and name a type that is unchecked or declared
document it. -/
theorem documents_exception_iff {ty : JavaType} :
    (judge s name argument).documents = some (.exception ty) ↔
      (name = "throws" ∨ name = "exception") ∧ s.kind.isCallable ∧
        s.scope.resolve? s.table argument.trim.firstWord = some ty ∧
        (s.table.isUnchecked ty ∨ ty ∈ s.throws.1) := by
  rw [← TagName.ofText?_eq_throws, judge]
  cases TagName.ofText? name with
  | none => simp
  | some tag => cases tag <;> simp [documents_judgeParam, documents_judgeThrows]

end Judge

/-- Whether the tag may stand in the comment. -/
def Subject.allows (s : Subject) : TagName → Bool
  | .author | .version => s.kind.isCheckedType
  | .returns => s.kind == .method && !s.declaration.isVoidMethod
  | .param => s.allowsParam
  | .throws => s.kind.isCallable
  | _ => true

/-- Whether a tag has the argument that it needs: a parameter tag a name and a description, any
other tag something besides white space. -/
def TagName.accepts (tag : TagName) (argument : Text) : Bool :=
  match tag with
  | .param => describes argument argument.trim.firstWord
  | _ => !argument.isAllBlank

section Counts

variable {s : Subject} {name argument : Text}

private theorem counts_judgeText {missing : Violation} :
    (judgeText missing argument).counts = !argument.isAllBlank := by
  unfold judgeText
  split_ifs with blank
  · simp [blank]
  · simp [blank]

private theorem counts_judgeTypeText {illegal missing : Violation} :
    (judgeTypeText s illegal missing argument).counts =
      (s.kind.isCheckedType && !argument.isAllBlank) := by
  unfold judgeTypeText
  split_ifs with type
  · simp [type, counts_judgeText]
  · simp [type]

private theorem counts_judgeReturn :
    (judgeReturn s argument).counts =
      (s.kind == .method && !s.declaration.isVoidMethod && !argument.isAllBlank) := by
  unfold judgeReturn
  simp only
  split_ifs with other void
  · simp [other]
  · simp [void]
  · simp [not_not.mp other, void, counts_judgeText]

private theorem counts_judgeParam :
    (judgeParam s argument).counts =
      (s.allowsParam && describes argument argument.trim.firstWord) := by
  unfold judgeParam
  simp only
  split_ifs with allowed
  · split
    · next cut => simp [describes_of_no_cut cut]
    · next name description cut =>
      have named := word_ne_nil_of_cut cut
      have word : argument.trim.firstWord = name := by
        obtain ⟨c, blank, split, others⟩ := Text.cutFirst?_eq_some_iff.mp cut
        rw [split, Text.firstWord_append blank others]
      rw [allowed, Bool.true_and, describes_of_cut cut, word, beq_self_eq_true, Bool.true_and]
      split_ifs with malformed known
      · have empty : Text.isAllBlank description := by simpa [named] using malformed
        simp [empty]
      · have described : Text.isAllBlank description = false := by simp_all
        simp [described]
      · have described : Text.isAllBlank description = false := by simp_all
        simp [described]
  · simp [allowed]

private theorem counts_judgeReference {tag : Text} :
    (judgeReference s tag argument).counts = true := by
  unfold judgeReference
  split_ifs
  · split <;> rfl
  · rfl

private theorem counts_judgeLink {tag : Text} {missing : Violation} :
    (judgeLink s tag missing argument).counts = !argument.isAllBlank := by
  unfold judgeLink
  split_ifs with blank
  · simp [blank]
  · simp [blank, counts_judgeReference]

private theorem counts_judgeSee : (judgeSee s argument).counts = !argument.isAllBlank := by
  unfold judgeSee
  simp only
  split
  · next empty => simp [Text.trim_eq_nil_iff.mp empty]
  all_goals
    have visible : Text.isAllBlank argument = false :=
      Text.isAllBlank_eq_false_of_trim_ne_nil (by simp_all)
    simp [visible, counts_judgeReference]

private theorem counts_judgeThrows {tag : Text} :
    (judgeThrows s tag argument).counts = (s.kind.isCallable && !argument.isAllBlank) := by
  unfold judgeThrows
  simp only
  split_ifs with notCallable empty
  · simp_all
  · have blank := Text.trim_eq_nil_iff.mp (List.isEmpty_iff.mp empty)
    simp [blank]
  · have visible : Text.isAllBlank argument = false :=
      Text.isAllBlank_eq_false_of_trim_ne_nil (mt List.isEmpty_iff.mpr empty)
    have callable : s.kind.isCallable := by simpa using notCallable
    split
    · simp [visible, callable]
    · split_ifs <;> simp [visible, callable]

/-- The argument of a tag counts exactly when the tag has a rule, may stand in the comment and has
the argument that it needs. -/
theorem counts_judge :
    (judge s name argument).counts =
      (TagName.ofText? name).any fun tag => s.allows tag && tag.accepts argument := by
  unfold judge
  cases TagName.ofText? name with
  | none => rfl
  | some tag =>
    cases tag with
    | author => exact counts_judgeTypeText
    | version => exact counts_judgeTypeText
    | since => exact counts_judgeText
    | deprecated => exact counts_judgeText
    | returns => exact counts_judgeReturn
    | param => exact counts_judgeParam
    | link => exact counts_judgeLink
    | value => exact counts_judgeLink
    | see => exact counts_judgeSee
    | throws => exact counts_judgeThrows

end Counts

end Check

end DocAudit
