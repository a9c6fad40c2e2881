import DocAudit.Diagnostic
import DocAudit.Proofs.Check.Settings
import DocAudit.Proofs.TypeTable.Reachability

/-!
Methods that override one of a supertype: what the report says of a missing annotation, and what it
does not say of their comments.
-/

set_option autoImplicit false

namespace DocAudit

section Words

/-- The last part of a dotted name. -/
private theorem Text.afterLast_dot_eq_iff {t word : Text} (plain : '.' ∉ word) :
    t.afterLast (· == '.') = word ↔ t = word ∨ t.endsWith ('.' :: word) := by
  have solid : ∀ c ∈ word.reverse, !(c == '.') := by
    intro c member
    have other : c ≠ '.' := by
      rintro rfl
      exact plain (List.mem_reverse.mp member)
    simpa using other
  have turned : t.afterLast (· == '.') = word ↔
      t.reverse.takeWhile (fun c => !(c == '.')) = word.reverse := by
    rw [Text.afterLast, ← List.reverse_inj, List.reverse_reverse]
  rw [turned, Text.endsWith, List.isSuffixOf_iff_suffix]
  constructor
  · intro taken
    have whole := List.takeWhile_append_dropWhile (p := fun c => !(c == '.')) (l := t.reverse)
    rw [taken] at whole
    cases rest : t.reverse.dropWhile fun c => !(c == '.') with
    | nil =>
      rw [rest, List.append_nil] at whole
      exact Or.inl (List.reverse_inj.mp whole.symm)
    | cons c before =>
      have stops : c = '.' := by
        have head := List.head?_dropWhile_not (fun c => !(c == '.')) t.reverse
        simpa [rest] using head
      rw [rest, stops, ← List.reverse_inj, List.reverse_reverse] at whole
      exact Or.inr ⟨before.reverse, by simpa using whole⟩
  · rintro (rfl | ⟨before, whole⟩)
    · exact List.takeWhile_eq_self_iff.mpr solid
    · rw [← whole, List.reverse_append, List.reverse_cons, List.append_assoc,
        List.takeWhile_append_of_pos solid]
      simp

/-- Whether an annotation is the one for overriding, by its simple or a qualified name. -/
def namesOverride (a : Text) : Bool :=
  a == ("Override" : Text) || a.endsWith ".Override"

private theorem Declaration.saysOverride_eq (d : Declaration) :
    d.saysOverride = d.annotations.any namesOverride := by
  have each (a : Text) : (a == ("Override" : Text) || a.afterLast (· == '.') == ("Override" : Text)) =
      namesOverride a := by
    have last : a.afterLast (· == '.') = ("Override" : Text) ↔
        a = ("Override" : Text) ∨ a.endsWith ".Override" := Text.afterLast_dot_eq_iff (by decide)
    rw [namesOverride, Bool.eq_iff_iff]
    simp only [Bool.or_eq_true, beq_iff_eq, last]
    exact or_self_left
  simp only [saysOverride, hasAnnotation, each]

/-- Of what is illegal where it stands, only one violation is said in these words. -/
private theorem Violation.eq_inheritDocOnNonOverride {v : Violation}
    (kind : v.kind = .illegalContext)
    (message : v.message = Violation.inheritDocOnNonOverride.message) :
    v = inheritDocOnNonOverride := by
  have initial := congrArg List.head? message
  cases v
  case inheritDocOnNonOverride => rfl
  case inheritDocWithoutSupertype => exact absurd message (by decide +kernel)
  case illegalAuthor | illegalParam | illegalReturn | returnOnVoidMethod | illegalThrows |
      illegalVersion =>
    have other : some 'I' ≠ some '@' := by decide
    exact absurd initial other
  all_goals cases kind

end Words

namespace Check

/-- What is found in the comment of an overriding declaration: no omission, and no complaint that
it inherits documentation. -/
private theorem Origin.of_isOverride {s : Subject} {comment : Text} {v : Violation}
    (overrides : s.isOverride) (origin : Origin s comment v) :
    v.kind ≠ .commentTooShort ∧ v.kind ≠ .undocumented ∧ v ≠ .inheritDocOnNonOverride := by
  have never {p : Prop} (own : s.isOverride = false) : p :=
    absurd overrides (Bool.eq_false_iff.mp own)
  cases origin with
  | throws _ => simp [Violation.kind]
  | inheritance wrong =>
    rcases cases_of_judgeInheritDoc wrong with ⟨-, -, own⟩ | rfl
    · exact never own
    · simp [Violation.kind]
  | tag _ blames =>
    cases blames with
    | wordless silent =>
      have harmless : ∀ w ∈ wordless, w.kind ≠ .commentTooShort ∧ w.kind ≠ .undocumented ∧
          w ≠ .inheritDocOnNonOverride := by decide
      exact harmless v silent
    | reference _ _ blames => cases blames <;> simp [Violation.kind]
    | _ => simp [Violation.kind]
  | length _ own => exact never own
  | result own => exact never own
  | parameter own _ => exact never own
  | exception own _ => exact never own

/-- No comment lacks an annotation. -/
private theorem Origin.kind_ne_missingOverride {s : Subject} {comment : Text} {v : Violation}
    (origin : Origin s comment v) : v.kind ≠ .missingOverride := by
  cases origin with
  | inheritance wrong =>
    rcases cases_of_judgeInheritDoc wrong with ⟨rfl, -, -⟩ | rfl <;> simp [Violation.kind]
  | tag _ blames =>
    cases blames with
    | wordless silent =>
      have harmless : ∀ w ∈ wordless, w.kind ≠ .missingOverride := by decide
      exact harmless v silent
    | reference _ _ blames => cases blames <;> simp [Violation.kind]
    | _ => simp [Violation.kind]
  | _ => simp [Violation.kind]

end Check

namespace Declaration

variable {d : Declaration} {unit : CompilationUnit} {path : Text} {table : TypeTable}
  {settings : Settings} {x : Diagnostic}

/-- Whether this is a method that overrides one of a supertype without saying so. -/
def lacksOverride (d : Declaration) (unit : CompilationUnit) (table : TypeTable) : Bool :=
  d.kind == .method && table.overrides ⟨d.owner, 0⟩ d.name (d.erasedParameters unit table) &&
    !d.annotations.any namesOverride

private theorem missingOverride_eq : d.missingOverride unit path table settings =
    if settings.requireOverride && d.lacksOverride unit table then
      [d.diagnose path d.line (.missingOverride d.name)] else [] := by
  rw [missingOverride, overridesSupertype, saysOverride_eq, lacksOverride, Bool.and_assoc]

private theorem kind_of_mem_commentDiagnostics
    (found : x ∈ d.commentDiagnostics unit path table settings) : x.kind ≠ .missingOverride := by
  obtain ⟨comment, -, v, origin, diagnosed⟩ := origin_of_mem_commentDiagnostics found
  rw [diagnosed]
  exact origin.kind_ne_missingOverride

/-- Whether an annotation is required has no part in the check of the comment. -/
private theorem commentDiagnostics_requireOverride (required : Bool) :
    d.commentDiagnostics unit path table { settings with requireOverride := required } =
      d.commentDiagnostics unit path table settings := by
  have same : (d.subject unit table { settings with requireOverride := required }).findings =
      (d.subject unit table settings).findings :=
    Check.findings_withSettings (s := d.subject unit table settings) rfl rfl
  simp only [commentDiagnostics, same]

private theorem filter_kind_diagnostics :
    (d.diagnostics unit path table settings).filter (fun x => x.kind == .missingOverride) =
      d.missingOverride unit path table settings := by
  have comment : (d.commentDiagnostics unit path table settings).filter
      (fun x => x.kind == .missingOverride) = [] :=
    List.filter_eq_nil_iff.mpr fun x found => by simpa using kind_of_mem_commentDiagnostics found
  rw [diagnostics, List.filter_append, comment, List.append_nil, missingOverride]
  split_ifs <;> rfl

private theorem filter_kind_ne_diagnostics :
    (d.diagnostics unit path table settings).filter (fun x => x.kind != .missingOverride) =
      d.commentDiagnostics unit path table settings := by
  have comment : (d.commentDiagnostics unit path table settings).filter
      (fun x => x.kind != .missingOverride) = d.commentDiagnostics unit path table settings :=
    List.filter_eq_self.mpr fun x found => by simpa using kind_of_mem_commentDiagnostics found
  rw [diagnostics, List.filter_append, comment, missingOverride]
  split_ifs <;> rfl

/-- What a report says of a method that overrides, or says so of itself. -/
private theorem harmless_of_overrides (overrides : d.kind = .method)
    (evidence : table.overrides ⟨d.owner, 0⟩ d.name (d.erasedParameters unit table) ∨
      d.annotations.any namesOverride)
    (found : x ∈ d.diagnostics unit path table settings) :
    x.kind ≠ .commentTooShort ∧ x.kind ≠ .undocumented ∧
      ∀ line, x ≠ d.diagnose path line .inheritDocOnNonOverride := by
  have isOverride : (d.subject unit table settings).isOverride := by
    rw [← saysOverride_eq] at evidence
    simp only [subject, overridesSupertype, overrides, Bool.and_eq_true, Bool.or_eq_true,
      beq_self_eq_true, true_and]
    exact evidence
  obtain ⟨v, diagnosed, ⟨rfl, -⟩ | ⟨comment, -, origin⟩⟩ := origin_of_mem_diagnostics found
  · refine ⟨by rw [diagnosed]; simp [diagnose, Violation.kind],
      by rw [diagnosed]; simp [diagnose, Violation.kind], ?_⟩
    intro line same
    rw [diagnosed] at same
    cases congrArg Diagnostic.kind same
  · obtain ⟨long, documented, inherits⟩ := origin.of_isOverride isOverride
    refine ⟨by rw [diagnosed]; exact long, by rw [diagnosed]; exact documented, ?_⟩
    intro line same
    rw [diagnosed] at same
    exact inherits (Violation.eq_inheritDocOnNonOverride (congrArg Diagnostic.kind same)
      (congrArg Diagnostic.message same))

end Declaration

/-- A report lists the methods that override without saying so where that is asked for, each before
what is wrong with its comment, and is otherwise the same. A method that overrides or says so may
have a comment that is short, incomplete and inherited. -/
theorem CompilationUnit.diagnostics_of_overriding (unit : CompilationUnit) (path : Text)
    (table : TypeTable) :
    (∀ settings, (unit.diagnostics path table settings).filter
        (fun x => x.kind == .missingOverride) =
      if settings.requireOverride then
        (unit.declarations.filter (·.lacksOverride unit table)).map fun d =>
          d.diagnose path d.line (.missingOverride d.name)
      else []) ∧
    (∀ settings, unit.diagnostics path table settings = unit.declarations.flatMap fun d =>
      (if settings.requireOverride && d.lacksOverride unit table then
        [d.diagnose path d.line (.missingOverride d.name)] else []) ++
      d.commentDiagnostics unit path table settings) ∧
    (∀ settings : Settings, unit.diagnostics path table { settings with requireOverride := false } =
      (unit.diagnostics path table { settings with requireOverride := true }).filter
        fun x => x.kind != .missingOverride) ∧
    ∀ settings, ∀ d ∈ unit.declarations, d.kind = .method →
      (table.overrides ⟨d.owner, 0⟩ d.name (d.erasedParameters unit table) ∨
        d.annotations.any namesOverride) →
      ∀ x ∈ d.diagnostics unit path table settings,
        x.kind ≠ .commentTooShort ∧ x.kind ≠ .undocumented ∧
          ∀ line, x ≠ d.diagnose path line .inheritDocOnNonOverride := by
  refine ⟨fun settings => ?_, fun settings => ?_, fun settings => ?_, ?_⟩
  · rw [diagnostics, List.filter_flatMap]
    simp only [Declaration.filter_kind_diagnostics, Declaration.missingOverride_eq]
    cases settings.requireOverride with
    | false => simp
    | true =>
      induction unit.declarations with
      | nil => rfl
      | cons d declarations ih =>
        simp only [Bool.true_and, if_true] at ih ⊢
        rw [List.flatMap_cons, ih, List.filter_cons]
        split_ifs <;> rfl
  · simp only [diagnostics, Declaration.diagnostics, Declaration.missingOverride_eq]
  · have off (d : Declaration) :
        d.diagnostics unit path table { settings with requireOverride := false } =
          d.commentDiagnostics unit path table settings := by
      rw [Declaration.diagnostics, Declaration.missingOverride_eq,
        Declaration.commentDiagnostics_requireOverride]
      rfl
    rw [diagnostics, diagnostics, List.filter_flatMap]
    simp only [off, Declaration.filter_kind_ne_diagnostics,
      Declaration.commentDiagnostics_requireOverride]
  · intro settings d _ overrides evidence x found
    exact Declaration.harmless_of_overrides overrides evidence found

/-- A method that overrides another, with a comment that says nothing. -/
def inheriting : Declaration where
  kind := .method
  name := "area"
  visibility := .everywhere
  owner := "Square"
  outermost := "Square"
  line := 4
  comment := some ⟨"/** {@inheritDoc} */", 3⟩
  parameters := [⟨"width", "int"⟩]
  typeVariables := []
  throws := []
  returnType := some "int"
  hasSupertypes := false
  annotations := []

/-- The types of that method and of the one that it overrides. -/
def shapes : TypeTable :=
  (((TypeTable.empty.declare "Shape" .classType).addMethod "Shape" "area" [⟨"int", 0⟩]).declare
    "Square" .classType).setSuperclass "Square" "Shape"

/-- The missing annotation is reported where it is asked for, and nothing of the comment. -/
theorem diagnostics_inheriting :
    ((CompilationUnit.mk none [] [] [inheriting]).diagnostics "Square.java" shapes
        { requireOverride := true }).filter (fun x => x.kind == .missingOverride) =
      [inheriting.diagnose "Square.java" 4 (.missingOverride "area")] ∧
    ∀ x ∈ inheriting.diagnostics ⟨none, [], [], [inheriting]⟩ "Square.java" shapes {},
      x.kind ≠ .commentTooShort ∧ x.kind ≠ .undocumented ∧
        ∀ line, x ≠ inheriting.diagnose "Square.java" line .inheritDocOnNonOverride := by
  obtain ⟨missing, -, -, harmless⟩ :=
    CompilationUnit.diagnostics_of_overriding ⟨none, [], [], [inheriting]⟩ "Square.java" shapes
  have overrides : shapes.overrides ⟨inheriting.owner, 0⟩ inheriting.name
      (inheriting.erasedParameters ⟨none, [], [], [inheriting]⟩ shapes) := by
    have erased : inheriting.erasedParameters ⟨none, [], [], [inheriting]⟩ shapes = [⟨"int", 0⟩] := by
      decide +kernel
    have inherited : shapes.hasOverload ⟨"Shape", 0⟩ "area" [⟨"int", 0⟩] :=
      List.any_eq_true.mpr ⟨_, TypeTable.self_mem_lineage, by decide +kernel⟩
    rw [erased]
    exact List.any_eq_true.mpr ⟨⟨"Shape", 0⟩, by decide +kernel, inherited⟩
  have lacks : inheriting.lacksOverride ⟨none, [], [], [inheriting]⟩ shapes := by
    rw [Declaration.lacksOverride, overrides]
    rfl
  refine ⟨(missing { requireOverride := true }).trans ?_,
    harmless {} inheriting (List.mem_singleton_self _) rfl (Or.inl overrides)⟩
  have only : [inheriting].filter (·.lacksOverride ⟨none, [], [], [inheriting]⟩ shapes) =
      [inheriting] := List.filter_eq_self.mpr (by simpa using lacks)
  rw [if_pos rfl, only]
  rfl

end DocAudit
