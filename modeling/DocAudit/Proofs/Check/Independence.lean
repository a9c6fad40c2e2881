import DocAudit.Proofs.Check.Completeness
import DocAudit.Proofs.TypeTable.Agreement

/-!
What the verdict on a tag depends on: its own name and argument, and what the declaration is checked
against. Neither the rest of the comment nor the order of the known types has any part in it.
-/

set_option autoImplicit false

namespace DocAudit

/-- The same declaration with another comment. -/
def Declaration.withComment (d : Declaration) (comment : Option DocComment) : Declaration :=
  { d with comment }

namespace Check

open Comment (Event IsDocComment)

/-- The subjects differ at most in the comment, in what they say of overriding and in the order of
their types. -/
structure Subject.SameRules (s s' : Subject) : Prop where
  declaration : ∃ comment, s'.declaration = s.declaration.withComment comment
  scope : s.scope = s'.scope
  table : s.table.SameEntries s'.table
  settings : s.settings = s'.settings

namespace Subject.SameRules

variable {s s' : Subject}

private theorem ofDeclaration {α : Type} (same : s.SameRules s') (f : Declaration → α)
    (ignores : ∀ d comment, f (.withComment d comment) = f d) :
    f s.declaration = f s'.declaration := by
  obtain ⟨comment, other⟩ := same.declaration
  rw [other, ignores]

private theorem kind (same : s.SameRules s') : s.kind = s'.kind :=
  same.ofDeclaration Declaration.kind fun _ _ => rfl

private theorem isVoidMethod (same : s.SameRules s') :
    s.declaration.isVoidMethod = s'.declaration.isVoidMethod :=
  same.ofDeclaration Declaration.isVoidMethod fun _ _ => rfl

private theorem allowsParam (same : s.SameRules s') : s.allowsParam = s'.allowsParam :=
  same.ofDeclaration (fun d => Subject.allowsParam { s with declaration := d }) fun _ _ => rfl

private theorem parameterNames (same : s.SameRules s') : s.parameterNames = s'.parameterNames :=
  same.ofDeclaration (fun d => Subject.parameterNames { s with declaration := d }) fun _ _ => rfl

theorem isChecked (same : s.SameRules s') : s.isChecked = s'.isChecked :=
  same.ofDeclaration (fun d => Subject.isChecked { s with declaration := d }) fun _ _ => rfl

private theorem resolve? (same : s.SameRules s') (name : Text) :
    s.scope.resolve? s.table name = s'.scope.resolve? s'.table name := by
  rw [same.scope]
  exact Scope.resolve?_congr same.table.sameNames name

private theorem resolveThrows (same : s.SameRules s') (names : List Text) :
    s.resolveThrows names = s'.resolveThrows names := by
  induction names with
  | nil => rfl
  | cons name names ih => rw [Subject.resolveThrows, Subject.resolveThrows, same.resolve?, ih]

private theorem throws (same : s.SameRules s') : s.throws = s'.throws := by
  have names := same.ofDeclaration Declaration.throws fun _ _ => rfl
  rw [Subject.throws, Subject.throws, same.kind, names, same.resolveThrows]

private theorem judgeReference (same : s.SameRules s') (tag argument : Text) :
    judgeReference s tag argument = Check.judgeReference s' tag argument := by
  have owner := same.ofDeclaration Declaration.owner fun _ _ => rfl
  simp only [Check.judgeReference, same.settings, same.scope, owner,
    Reference.check_congr same.table]

private theorem judgeSee (same : s.SameRules s') (argument : Text) :
    judgeSee s argument = Check.judgeSee s' argument := by
  simp only [Check.judgeSee, same.judgeReference]

private theorem judgeThrows (same : s.SameRules s') (tag argument : Text) :
    judgeThrows s tag argument = Check.judgeThrows s' tag argument := by
  simp only [Check.judgeThrows, same.kind, same.resolve?, same.throws,
    TypeTable.isUnchecked_congr same.table]

private theorem judgeParam (same : s.SameRules s') (argument : Text) :
    judgeParam s argument = Check.judgeParam s' argument := by
  simp only [Check.judgeParam, same.allowsParam, same.parameterNames]

/-- A tag gets the same verdict. -/
theorem judge (same : s.SameRules s') (name argument : Text) :
    judge s name argument = Check.judge s' name argument := by
  unfold Check.judge
  cases TagName.ofText? name with
  | none => rfl
  | some tag =>
    cases tag with
    | author | version => simp only [judgeTypeText, same.kind]
    | since | deprecated => rfl
    | returns => simp only [judgeReturn, same.kind, same.isVoidMethod]
    | param => exact same.judgeParam argument
    | link | value => simp only [judgeLink, same.judgeReference]
    | see => exact same.judgeSee argument
    | throws => exact same.judgeThrows name argument

private theorem judgeEvent (same : s.SameRules s') : s.judgeEvent = s'.judgeEvent := by
  funext e
  cases e with
  | tag line name argument => simp only [Subject.judgeEvent, same.judge]
  | _ => rfl

private theorem omissions (same : s.SameRules s') (seen : List Event) :
    s.omissions seen = s'.omissions seen := by
  have length : s.length = s'.length := by
    funext e
    cases e with
    | tag line name argument => simp only [Subject.length, same.judge]
    | _ => rfl
  have documents : s.documents = s'.documents := by
    funext e
    cases e with
    | tag line name argument => simp only [Subject.documents, same.judge]
    | _ => rfl
  simp only [Subject.omissions, length, documents, same.settings, same.kind, same.isVoidMethod,
    same.parameterNames, same.throws]

private theorem judgeEvents (same : s.SameRules s') (complete : Bool) (seen events : List Event) :
    s.judgeEvents complete seen events = s'.judgeEvents complete seen events := by
  induction events generalizing seen with
  | nil => rfl
  | cons e events ih =>
    rw [Subject.judgeEvents, Subject.judgeEvents, same.omissions, same.judgeEvent, ih]

private theorem judgeInheritDoc (same : s.SameRules s') (overrides : s.isOverride = s'.isOverride) :
    judgeInheritDoc s = Check.judgeInheritDoc s' := by
  have hasSupertypes := same.ofDeclaration Declaration.hasSupertypes fun _ _ => rfl
  rw [Check.judgeInheritDoc, Check.judgeInheritDoc, same.kind, overrides, hasSupertypes]

private theorem judgeInheritance (same : s.SameRules s')
    (overrides : s.isOverride = s'.isOverride) : s.judgeInheritance = s'.judgeInheritance := by
  funext e
  cases e with
  | tag line name argument => simp only [Subject.judgeInheritance, same.judgeInheritDoc overrides]
  | _ => rfl

/-- A text gets the same findings as a comment. -/
theorem judgeComment (same : s.SameRules s') (overrides : s.isOverride = s'.isOverride)
    (comment : Text) : s.judgeComment comment = s'.judgeComment comment := by
  simp only [Subject.judgeComment, same.throws, same.judgeInheritance overrides, same.judgeEvents,
    overrides]

/-- The same comment gets the same findings. -/
theorem findings (same : s.SameRules s')
    (comment : s.declaration.comment = s'.declaration.comment)
    (overrides : s.isOverride = s'.isOverride) : s.findings = s'.findings := by
  simp only [Subject.findings, comment, same.isChecked, same.judgeComment overrides]

end Subject.SameRules

section TagByTag

variable {s : Subject} {v : Violation}

/-- The same subject with another comment, overriding or not. -/
def Subject.withComment (s : Subject) (comment : DocComment) (isOverride : Bool) : Subject :=
  { s with declaration := s.declaration.withComment (some comment), isOverride }

/-- The first exception that a checked method or constructor declares and that is not known. -/
def Subject.unknownException? (s : Subject) : Option Text :=
  if s.isChecked && s.kind.isCallable then
    s.declaration.throws.find? fun name => (s.scope.resolve? s.table name).isNone
  else none

/-- What is reported of an event when tags are judged by their names and arguments. -/
def ofTag (judged : Text → Text → Option Violation) : Event → List Finding
  | .tag line name argument => (judged name argument).toList.map (⟨line, ·⟩)
  | _ => []

theorem sameRules_withComment (s : Subject) (comment : DocComment) (isOverride : Bool) :
    s.SameRules (s.withComment comment isOverride) :=
  ⟨⟨some comment, rfl⟩, rfl, fun _ => rfl, rfl⟩

private theorem resolveThrows_snd (names : List Text) :
    (s.resolveThrows names).2 =
      names.find? fun name => (s.scope.resolve? s.table name).isNone := by
  induction names with
  | nil => rfl
  | cons name names ih =>
    rw [Subject.resolveThrows, List.find?_cons]
    cases s.scope.resolve? s.table name with
    | none => rfl
    | some ty => exact ih

private theorem throws_snd (checked : s.isChecked) : s.throws.2 = s.unknownException? := by
  rw [Subject.throws, Subject.unknownException?, apply_ite Prod.snd, resolveThrows_snd, checked,
    Bool.true_and]

private theorem judgeEvent_eq : s.judgeEvent = ofTag fun name argument =>
    (judge s name argument).violation := by
  funext e
  cases e <;> rfl

private theorem judgeInheritance_eq : s.judgeInheritance = ofTag fun name _ =>
    if name = "inheritDoc" then judgeInheritDoc s else none := by
  funext e
  cases e with
  | tag line name argument =>
    rw [Subject.judgeInheritance, ofTag, isInheritDoc]
    by_cases inherits : name = "inheritDoc"
    · rw [if_pos inherits, if_pos (beq_iff_eq.mpr inherits)]
    · rw [if_neg inherits, if_neg (by simpa using inherits)]
      rfl
  | _ => rfl

private theorem isOmission_of_mem_omitted {events : List Event} (left : v ∈ s.omitted events) :
    v.isOmission := by
  simp only [Subject.omitted, List.mem_append, List.mem_map] at left
  rcases left with ((short | noReturn) | ⟨name, -, rfl⟩) | ⟨ty, -, rfl⟩
  · split_ifs at short
    · obtain rfl := List.mem_singleton.mp short
      rfl
    · simp at short
  · split_ifs at noReturn
    · obtain rfl := List.mem_singleton.mp noReturn
      rfl
    · simp at noReturn
  · rfl
  · rfl

/-- A checked comment is reported tag by tag, and then what it omits if it has to be complete. -/
theorem findings_of_isDocComment (checked : s.isChecked) {comment : DocComment}
    (commented : s.declaration.comment = some comment) (doc : IsDocComment comment.text) :
    s.findings = s.unknownException?.toList.map (⟨0, .unresolvedException ·⟩) ++
      (Comment.events comment.text).flatMap s.judgeInheritance ++
      (Comment.events comment.text).flatMap s.judgeEvent ++
      if !inherits (Comment.events comment.text) && !s.isOverride then
        (s.omitted (Comment.events comment.text)).map (⟨0, ·⟩) else [] := by
  obtain ⟨body, events, inner⟩ := doc.events_eq
  have tagsOnly : (Comment.events comment.text).flatMap s.judgeEvent =
      body.flatMap s.judgeEvent := by
    rw [events, List.flatMap_cons, List.flatMap_append]
    simp [Subject.judgeEvent]
  have whole : s.findings = s.judgeComment comment.text := by
    rw [Subject.findings, commented]
    exact if_pos checked
  rw [whole, Subject.judgeComment, tagsOnly, throws_snd checked]
  simp only [events, judgeEvents_comment inner, List.append_assoc]

private theorem findings_eq (checked : s.isChecked) {comment : DocComment}
    (commented : s.declaration.comment = some comment) (doc : IsDocComment comment.text) :
    ∃ missing : List Violation, (∀ v ∈ missing, v.isOmission) ∧
      s.findings = s.unknownException?.toList.map (⟨0, .unresolvedException ·⟩) ++
        (Comment.events comment.text).flatMap s.judgeInheritance ++
        (Comment.events comment.text).flatMap s.judgeEvent ++ missing.map (⟨0, ·⟩) := by
  refine ⟨if !inherits (Comment.events comment.text) && !s.isOverride then
    s.omitted (Comment.events comment.text) else [], ?_, ?_⟩
  · intro v left
    split_ifs at left
    · exact isOmission_of_mem_omitted left
    · simp at left
  · rw [findings_of_isDocComment checked commented doc, apply_ite (List.map _), List.map_nil]

/-- What is reported of a comment is told tag by tag: no tag, no comment and no overriding changes
how a tag is judged by its name and argument. -/
theorem findings_tag_by_tag (s : Subject) :
    ∃ (judged : Text → Text → Option Violation) (inherited : Bool → Option Violation),
      (∀ name argument, ∀ v ∈ judged name argument, v.isOmission = false) ∧
      ∀ (comment : DocComment) (isOverride : Bool), IsDocComment comment.text →
        ∃ missing : List Violation, (∀ v ∈ missing, v.isOmission) ∧
          (s.withComment comment isOverride).findings =
            s.unknownException?.toList.map (⟨0, .unresolvedException ·⟩) ++
            (Comment.events comment.text).flatMap (ofTag fun name _ =>
              if name = "inheritDoc" then inherited isOverride else none) ++
            (Comment.events comment.text).flatMap (ofTag judged) ++ missing.map (⟨0, ·⟩) := by
  by_cases checked : s.isChecked
  · refine ⟨fun name argument => (judge s name argument).violation,
      fun isOverride => judgeInheritDoc { s with isOverride }, ?_, ?_⟩
    · intro name argument v blamed
      exact isOmission_of_judge blamed
    · intro comment isOverride doc
      have same := sameRules_withComment s comment isOverride
      have checked' : (s.withComment comment isOverride).isChecked := same.isChecked ▸ checked
      obtain ⟨missing, omission, findings⟩ := findings_eq checked' rfl doc
      refine ⟨missing, omission, findings.trans ?_⟩
      rw [judgeInheritance_eq, judgeEvent_eq]
      simp only [← same.judge]
      rfl
  · refine ⟨fun _ _ => none, fun _ => none, by simp, ?_⟩
    intro comment isOverride doc
    have nothing : ∀ judged : Text → Text → Option Violation,
        (∀ name argument, judged name argument = none) →
        (Comment.events comment.text).flatMap (ofTag judged) = [] := by
      intro judged never
      refine List.flatMap_eq_nil_iff.mpr fun e _ => ?_
      cases e <;> simp [ofTag, never]
    have unknown : s.unknownException? = none := by
      rw [Subject.unknownException?, Bool.eq_false_iff.mpr checked]
      rfl
    refine ⟨[], by simp, ?_⟩
    have silent : (s.withComment comment isOverride).findings = [] := if_neg checked
    rw [silent, unknown, nothing _ fun name argument => ite_self none,
      nothing _ fun name argument => rfl]
    rfl

/-- A comment with one tag. -/
def authorAlone : DocComment :=
  ⟨"/** The area.\n@author me\n*/", 1⟩

/-- A comment with the same tag behind two others. -/
def authorBehind : DocComment :=
  ⟨"/** {@inheritDoc}\n@since\n@author me\n*/", 1⟩

/-- The verdict on a tag is the same by itself and behind tags that are judged too. -/
theorem findings_author_alone_and_behind :
    ∃ (judged : Text → Text → Option Violation) (inherited : Bool → Option Violation)
      (missing missing' : List Violation),
      (halfDocumented.withComment authorAlone false).findings =
        ofTag judged (.tag 1 "author" "me") ++ missing.map (⟨0, ·⟩) ∧
      (halfDocumented.withComment authorBehind true).findings =
        (inherited true).toList.map (⟨0, ·⟩) ++ ofTag judged (.tag 0 "inheritDoc" []) ++
          ofTag judged (.tag 1 "since" []) ++ ofTag judged (.tag 2 "author" "me") ++
          missing'.map (⟨0, ·⟩) := by
  have known : halfDocumented.unknownException? = none := by decide +kernel
  have doc : IsDocComment authorAlone.text :=
    ⟨by decide +kernel, by decide +kernel, by decide +kernel, by decide +kernel⟩
  have doc' : IsDocComment authorBehind.text :=
    ⟨by decide +kernel, by decide +kernel, by decide +kernel, by decide +kernel⟩
  obtain ⟨judged, inherited, -, findings⟩ := findings_tag_by_tag halfDocumented
  obtain ⟨missing, -, alone⟩ := findings authorAlone false doc
  obtain ⟨missing', -, behind⟩ := findings authorBehind true doc'
  have events : Comment.events authorAlone.text =
      [.enter 0, .commentText "/** The area.\n", .tag 1 "author" "me", .commentText "\n*/",
        .exit] := by decide +kernel
  have events' : Comment.events authorBehind.text =
      [.enter 0, .commentText "/** ", .tag 0 "inheritDoc" [], .commentText "\n", .tag 1 "since" [],
        .commentText "\n", .tag 2 "author" "me", .commentText "\n*/", .exit] := by decide +kernel
  refine ⟨judged, inherited, missing, missing', alone.trans ?_, behind.trans ?_⟩
  · rw [known, events]
    exact congrArg (· ++ missing.map (⟨0, ·⟩)) (List.append_nil (ofTag judged _))
  · have inheritance : (Comment.events authorBehind.text).flatMap (ofTag fun name _ =>
        if name = "inheritDoc" then inherited true else none) =
        (inherited true).toList.map (⟨0, ·⟩) := by
      rw [events']
      exact List.append_nil _
    have tags : (Comment.events authorBehind.text).flatMap (ofTag judged) =
        ofTag judged (.tag 0 "inheritDoc" []) ++
          (ofTag judged (.tag 1 "since" []) ++ ofTag judged (.tag 2 "author" "me")) := by
      rw [events']
      exact congrArg (fun found => _ ++ (_ ++ found)) (List.append_nil (ofTag judged _))
    rw [known, inheritance, tags]
    simp only [List.append_assoc]
    rfl

end TagByTag

end Check

end DocAudit
