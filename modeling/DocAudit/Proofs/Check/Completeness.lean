import DocAudit.Check
import DocAudit.Proofs.Check.Blame
import DocAudit.Proofs.Comment.SingleComment
import Mathlib.Algebra.GroupWithZero.Nat
import Mathlib.Data.List.ReduceOption

/-!
What a check says about the completeness of a comment. The omissions are told here by the tags of
the comment alone; the check collects them while it goes through the events.
-/

set_option autoImplicit false

namespace DocAudit.Check

open Comment (Event IsDocComment tags)

/-- Whether a tag has a rule, may stand in the comment and has the argument that it needs. -/
def Subject.isProper (s : Subject) (name argument : Text) : Bool :=
  (TagName.ofText? name).any fun tag => s.allows tag && tag.accepts argument

namespace Subject

/-- The number of characters in the text outside of tags and in the arguments of proper tags. -/
def countedCharacters (s : Subject) (events : List Event) : Nat :=
  (events.map fun
    | .commentText text => realCharacters text
    | .tag _ name argument => if s.isProper name argument then realCharacters argument else 0
    | _ => 0).sum

/-- Whether parameter tags may stand in the comment and one of them describes this name. -/
def describesParameter (s : Subject) (events : List Event) (name : Text) : Bool :=
  s.allowsParam && (tags events).any fun tag => tag.1 == ("param" : Text) && describes tag.2 name

/-- The declared exceptions of a method or constructor up to the first that cannot be resolved. -/
def declaredExceptions (s : Subject) : List JavaType :=
  if s.kind.isCallable then
    ((s.declaration.throws.map (s.scope.resolve? s.table)).takeWhile Option.isSome).reduceOption
  else []

/-- Whether an exception tag starts with a name for this type. -/
def namesException (s : Subject) (events : List Event) (ty : JavaType) : Bool :=
  (tags events).any fun tag =>
    (tag.1 == ("throws" : Text) || tag.1 == ("exception" : Text)) &&
      s.scope.resolve? s.table (Text.firstWord (Text.trim tag.2)) == some ty

/-- What a comment with these events leaves out. -/
def omitted (s : Subject) (events : List Event) : List Violation :=
  (if s.countedCharacters events < s.settings.minimumLength then
    [.commentTooShort s.settings.minimumLength (s.countedCharacters events)] else []) ++
  (if s.kind = .method ∧ ¬ s.declaration.isVoidMethod ∧ ∀ tag ∈ tags events, tag.1 ≠ "return" then
    [.missingReturn] else []) ++
  (s.parameterNames.filter fun name => !s.describesParameter events name).map
    .undocumentedParameter ++
  (s.declaredExceptions.filter fun ty => !s.namesException events ty).map
    fun ty => .undocumentedException ty.canonicalName

end Subject

section Collected

variable {s : Subject} {events : List Event}

private theorem mem_documents_iff {d : Documented} :
    d ∈ events.filterMap s.documents ↔
      ∃ tag ∈ tags events, (judge s tag.1 tag.2).documents = some d := by
  simp only [tags, List.mem_filterMap]
  constructor
  · rintro ⟨e, member, documents⟩
    cases e with
    | tag line name argument => exact ⟨(name, argument), ⟨_, member, rfl⟩, documents⟩
    | _ => simp [Subject.documents] at documents
  · rintro ⟨tag, ⟨e, member, same⟩, documents⟩
    cases e with
    | tag line name argument =>
      obtain rfl := Option.some.inj same
      exact ⟨_, member, documents⟩
    | _ => simp at same

theorem sum_length_eq :
    (events.map s.length).foldr Nat.add 0 = s.countedCharacters events := by
  have pointwise : s.length = fun
      | .commentText text => realCharacters text
      | .tag _ name argument => if s.isProper name argument then realCharacters argument else 0
      | _ => 0 := by
    funext e
    cases e with
    | tag line name argument =>
      rw [Subject.length, counts_judge]
      rfl
    | _ => rfl
  rw [pointwise]
  rfl

private theorem result_mem_iff :
    .result ∈ events.filterMap s.documents ↔ ∃ tag ∈ tags events, tag.1 = "return" := by
  simp only [mem_documents_iff, documents_result_iff]

private theorem parameter_mem_iff {name : Text} (declared : name ∈ s.parameterNames) :
    .parameter name ∈ events.filterMap s.documents ↔ s.describesParameter events name := by
  simp only [mem_documents_iff, documents_parameter_iff, Subject.describesParameter,
    Bool.and_eq_true, List.any_eq_true, beq_iff_eq]
  constructor
  · rintro ⟨tag, member, named, allowed, -, described⟩
    exact ⟨allowed, tag, member, named, described⟩
  · rintro ⟨allowed, tag, member, named, described⟩
    exact ⟨tag, member, named, allowed, declared, described⟩

private theorem resolveThrows_fst (names : List Text) :
    (s.resolveThrows names).1 =
      ((names.map (s.scope.resolve? s.table)).takeWhile Option.isSome).reduceOption := by
  induction names with
  | nil => rfl
  | cons name names ih =>
    rw [Subject.resolveThrows, List.map_cons]
    cases resolved : s.scope.resolve? s.table name with
    | none => rfl
    | some ty => rw [List.takeWhile_cons_of_pos rfl, List.reduceOption_cons_of_some, ← ih]

private theorem throws_fst : s.throws.1 = s.declaredExceptions := by
  rw [Subject.throws, Subject.declaredExceptions, apply_ite Prod.fst, resolveThrows_fst]

private theorem isCallable_of_declared {ty : JavaType} (declared : ty ∈ s.declaredExceptions) :
    s.kind.isCallable := by
  by_contra other
  rw [Subject.declaredExceptions, if_neg other] at declared
  exact List.not_mem_nil declared

private theorem exception_mem_iff {ty : JavaType} (declared : ty ∈ s.declaredExceptions) :
    .exception ty ∈ events.filterMap s.documents ↔ s.namesException events ty := by
  simp only [mem_documents_iff, documents_exception_iff, Subject.namesException,
    Bool.and_eq_true, Bool.or_eq_true, List.any_eq_true, beq_iff_eq]
  constructor
  · rintro ⟨tag, member, named, -, resolved, -⟩
    exact ⟨tag, member, named, resolved⟩
  · rintro ⟨tag, member, named, resolved⟩
    refine ⟨tag, member, named, isCallable_of_declared declared, resolved, Or.inr ?_⟩
    rw [throws_fst]
    exact declared

/-- What the check collects as missing is what the tags leave out. -/
theorem omissions_eq : s.omissions events = s.omitted events := by
  have missing : (s.kind = .method && !s.declaration.isVoidMethod &&
      !(events.filterMap s.documents).contains .result) = true ↔
      s.kind = .method ∧ ¬ s.declaration.isVoidMethod ∧ ∀ tag ∈ tags events, tag.1 ≠ "return" := by
    simp only [Bool.and_eq_true, decide_eq_true_eq, Bool.not_eq_true', List.contains_eq_mem,
      decide_eq_false_iff_not, result_mem_iff, not_exists, not_and, and_assoc, ne_eq,
      Bool.not_eq_true]
  have parameters : (s.parameterNames.filter fun name =>
      !(events.filterMap s.documents).contains (.parameter name)) =
      s.parameterNames.filter fun name => !s.describesParameter events name := by
    refine List.filter_congr fun name declared => congrArg _ ?_
    rw [Bool.eq_iff_iff, List.contains_iff_mem, parameter_mem_iff declared]
  have exceptions : (s.throws.1.filter fun ty =>
      !(events.filterMap s.documents).contains (.exception ty)) =
      s.declaredExceptions.filter fun ty => !s.namesException events ty := by
    rw [throws_fst]
    refine List.filter_congr fun ty declared => congrArg _ ?_
    rw [Bool.eq_iff_iff, List.contains_iff_mem, exception_mem_iff declared]
  rw [Subject.omissions, Subject.omitted]
  simp only [sum_length_eq, parameters, exceptions, missing]

end Collected

section Report

variable {s : Subject} {body rest seen : List Event} {complete : Bool}

private theorem judgeEvents_append (inner : ∀ e ∈ body, e ≠ .exit) :
    s.judgeEvents complete seen (body ++ rest) =
      body.flatMap s.judgeEvent ++ s.judgeEvents complete (seen ++ body) rest := by
  induction body generalizing seen with
  | nil => simp
  | cons e body ih =>
    obtain ⟨other, others⟩ := List.forall_mem_cons.mp inner
    -- Only the end of a comment looks back at the events already seen.
    have found : (e = .exit && complete) = false := by simp [other]
    rw [List.cons_append, Subject.judgeEvents, ih others, List.flatMap_cons]
    simp [found]

private theorem startLine_enter (inner : ∀ e ∈ body, e.IsInner) (line : Nat) :
    startLine (.enter line :: body) = line := by
  rw [startLine, List.foldl_cons]
  induction body with
  | nil => rfl
  | cons e body ih =>
    obtain ⟨first, others⟩ := List.forall_mem_cons.mp inner
    cases e with
    | commentText text => exact ih others
    | tag line name argument => exact ih others
    | _ => exact first.elim

private theorem omitted_append_exit {events : List Event} :
    s.omitted (events ++ [.exit]) = s.omitted events := by
  have same : tags (events ++ [.exit]) = tags events := by simp [tags]
  have counted : s.countedCharacters (events ++ [.exit]) = s.countedCharacters events := by
    simp [Subject.countedCharacters]
  simp only [Subject.omitted, Subject.describesParameter, Subject.namesException, same, counted]

theorem judgeEvents_comment (inner : ∀ e ∈ body, e.IsInner) :
    s.judgeEvents complete [] (.enter 0 :: (body ++ [.exit])) =
      body.flatMap s.judgeEvent ++ if complete then
        (s.omitted (.enter 0 :: (body ++ [.exit]))).map (⟨0, ·⟩) else [] := by
  have notExit : ∀ e ∈ Event.enter 0 :: body, e ≠ .exit := by
    refine List.forall_mem_cons.mpr ⟨by simp, ?_⟩
    rintro e member rfl
    exact inner _ member
  rw [← List.cons_append, judgeEvents_append notExit, omitted_append_exit, List.flatMap_cons,
    List.nil_append, Subject.judgeEvents, Subject.judgeEvents, startLine_enter inner, omissions_eq]
  cases complete <;> simp [Subject.judgeEvent]

theorem isOmission_of_judgeEvent {e : Event} {f : Finding}
    (found : f ∈ s.judgeEvent e) : f.violation.isOmission = false := by
  cases e with
  | tag line name argument =>
    obtain ⟨v, blamed, rfl⟩ := List.mem_map.mp found
    exact isOmission_of_judge (Option.mem_toList.mp blamed)
  | _ => simp [Subject.judgeEvent] at found

theorem isOmission_of_judgeInheritance {e : Event} {f : Finding}
    (found : f ∈ s.judgeInheritance e) : f.violation.isOmission = false := by
  cases e with
  | tag line name argument =>
    simp only [Subject.judgeInheritance] at found
    split_ifs at found
    · obtain ⟨v, blamed, rfl⟩ := List.mem_map.mp found
      exact isOmission_of_judgeInheritDoc (Option.mem_toList.mp blamed)
    · simp at found
  | _ => simp [Subject.judgeInheritance] at found

theorem inherits_iff {events : List Event} :
    inherits events ↔ ∃ tag ∈ tags events, tag.1 = "inheritDoc" := by
  simp only [inherits, tags, List.any_eq_true, List.mem_filterMap]
  constructor
  · rintro ⟨e, member, inherited⟩
    cases e with
    | tag line name argument =>
      exact ⟨(name, argument), ⟨_, member, rfl⟩, beq_iff_eq.mp inherited⟩
    | _ => simp at inherited
  · rintro ⟨tag, ⟨e, member, same⟩, named⟩
    cases e with
    | tag line name argument =>
      obtain rfl := Option.some.inj same
      exact ⟨_, member, beq_iff_eq.mpr named⟩
    | _ => simp at same

/-- Exactly the omissions of a comment are reported, after everything else and on its first line;
none where documentation is inherited. -/
theorem findings_complete_exactly (s : Subject) (comment : DocComment)
    (commented : s.declaration.comment = some comment) (checked : s.isChecked)
    (doc : IsDocComment comment.text) :
    ((s.isOverride ∨ ∃ tag ∈ tags (Comment.events comment.text), tag.1 = "inheritDoc") →
      ∀ f ∈ s.findings, f.violation.isOmission = false) ∧
    (¬ (s.isOverride ∨ ∃ tag ∈ tags (Comment.events comment.text), tag.1 = "inheritDoc") →
      ∃ others, (∀ f ∈ others, f.violation.isOmission = false) ∧
        s.findings = others ++ (s.omitted (Comment.events comment.text)).map (⟨0, ·⟩)) := by
  obtain ⟨body, events, inner⟩ := doc.events_eq
  have findings : s.findings = s.judgeComment comment.text := by
    rw [Subject.findings, commented]
    exact if_pos checked
  have harmless : ∀ f ∈ s.throws.2.toList.map (fun name => ⟨0, .unresolvedException name⟩) ++
      (Event.enter 0 :: (body ++ [.exit])).flatMap s.judgeInheritance ++
      body.flatMap s.judgeEvent, f.violation.isOmission = false := by
    intro f found
    rcases List.mem_append.mp found with found | found
    · rcases List.mem_append.mp found with found | found
      · obtain ⟨name, -, rfl⟩ := List.mem_map.mp found
        rfl
      · obtain ⟨e, -, found⟩ := List.mem_flatMap.mp found
        exact isOmission_of_judgeInheritance found
    · obtain ⟨e, -, found⟩ := List.mem_flatMap.mp found
      exact isOmission_of_judgeEvent found
  rw [findings, Subject.judgeComment, ← inherits_iff, events, judgeEvents_comment inner,
    ← List.append_assoc]
  have whole : (!inherits (.enter 0 :: (body ++ [.exit])) && !s.isOverride) = true ↔
      ¬ (s.isOverride ∨ inherits (.enter 0 :: (body ++ [.exit]))) := by
    rw [Bool.and_eq_true, Bool.not_eq_true', Bool.not_eq_true', not_or, Bool.not_eq_true,
      Bool.not_eq_true, and_comm]
  constructor
  · intro inherited
    rw [if_neg (whole.not.mpr (not_not.mpr inherited)), List.append_nil]
    exact harmless
  · intro own
    exact ⟨_, harmless, by rw [if_pos (whole.mpr own)]⟩

/-- A method with two parameters, a result and a checked exception, whose comment is short and
documents one parameter and the result. -/
def halfDocumented : Subject where
  declaration := {
    kind := .method, name := "area", visibility := .everywhere, owner := "Shape"
    outermost := "Shape", line := 4
    comment := some ⟨"/** Area.\n@param width of it\n@return the area\n*/", 1⟩
    parameters := [⟨"width", "int"⟩, ⟨"height", "int"⟩], typeVariables := []
    throws := ["Failure"], returnType := some "int", hasSupertypes := false, annotations := [] }
  scope := ⟨[], "Shape", []⟩
  table := (TypeTable.empty.declare "Shape" .classType).declare "Failure" .classType
  settings := { minimumLength := 40 }
  isOverride := false

/-- The three omissions of a comment that is half complete. -/
theorem findings_halfDocumented :
    ∃ others, (∀ f ∈ others, f.violation.isOmission = false) ∧
      halfDocumented.findings = others ++
        [⟨0, .commentTooShort 40 21⟩, ⟨0, .undocumentedParameter "height"⟩,
          ⟨0, .undocumentedException "Failure"⟩] := by
  have doc : IsDocComment "/** Area.\n@param width of it\n@return the area\n*/" :=
    ⟨by decide +kernel, by decide +kernel, by decide +kernel, by decide +kernel⟩
  obtain ⟨others, harmless, found⟩ :=
    (findings_complete_exactly halfDocumented ⟨_, 1⟩ rfl rfl doc).2 (by decide +kernel)
  refine ⟨others, harmless, found.trans (congrArg _ ?_)⟩
  decide +kernel

end Report

end DocAudit.Check
