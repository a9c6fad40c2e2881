import DocAudit.Diagnostic
import DocAudit.Proofs.Check.Blame
import DocAudit.Proofs.Check.Findings
import DocAudit.Proofs.Comment.Place

/-!
Where each finding comes from: the declaration's own exceptions, its inherited documentation, a tag
of its comment, or what the comment leaves out. A missing annotation is all that is reported besides.
-/

set_option autoImplicit false

namespace DocAudit

namespace Check

open Comment (Event tags)

/-- What can be found in a comment, and why. Omissions are never found where the declaration
overrides another. -/
inductive Origin (s : Subject) (comment : Text) : Violation → Prop where
  | throws {name : Text} : name ∈ s.declaration.throws → Origin s comment (.unresolvedException name)
  | inheritance {v : Violation} : judgeInheritDoc s = some v → Origin s comment v
  | tag {name argument : Text} {v : Violation} :
      (name, argument) ∈ tags (Comment.events comment) → Blames s name argument v →
      Origin s comment v
  | length (actual : Nat) : s.isOverride = false →
      Origin s comment (.commentTooShort s.settings.minimumLength actual)
  | result : s.isOverride = false → Origin s comment .missingReturn
  | parameter {name : Text} : s.isOverride = false → name ∈ s.parameterNames →
      Origin s comment (.undocumentedParameter name)
  | exception {name : Text} {ty : JavaType} : s.isOverride = false →
      s.scope.resolve? s.table name = some ty →
      Origin s comment (.undocumentedException ty.canonicalName)

section Parts

variable {s : Subject} {comment : Text} {v : Violation} {f : Finding}

private theorem mem_of_resolveThrows {names : List Text} {name : Text}
    (unresolved : (s.resolveThrows names).2 = some name) : name ∈ names := by
  induction names with
  | nil => simp [Subject.resolveThrows] at unresolved
  | cons first names ih =>
    rw [Subject.resolveThrows] at unresolved
    split at unresolved
    · obtain rfl := Option.some.inj unresolved
      exact List.mem_cons_self
    · exact List.mem_cons_of_mem first (ih unresolved)

private theorem resolved_of_mem_resolveThrows {names : List Text} {ty : JavaType}
    (member : ty ∈ (s.resolveThrows names).1) :
    ∃ name ∈ names, s.scope.resolve? s.table name = some ty := by
  induction names with
  | nil => simp [Subject.resolveThrows] at member
  | cons first names ih =>
    rw [Subject.resolveThrows] at member
    split at member
    · simp at member
    · next found resolved =>
      rcases List.mem_cons.mp member with rfl | later
      · exact ⟨first, List.mem_cons_self, resolved⟩
      · obtain ⟨name, among, resolved'⟩ := ih later
        exact ⟨name, List.mem_cons_of_mem first among, resolved'⟩

private theorem origin_of_throws {name : Text} (unresolved : s.throws.2 = some name) :
    Origin s comment (.unresolvedException name) := by
  rw [Subject.throws] at unresolved
  split_ifs at unresolved
  exact .throws (mem_of_resolveThrows unresolved)

private theorem origin_of_omissions {seen : List Event} (own : s.isOverride = false)
    (left : v ∈ s.omissions seen) : Origin s comment v := by
  simp only [Subject.omissions, List.mem_append, List.mem_map, List.mem_filter] at left
  rcases left with ((short | noReturn) | ⟨name, ⟨declared, -⟩, rfl⟩) | ⟨ty, ⟨declared, -⟩, rfl⟩
  · split_ifs at short
    · obtain rfl := List.mem_singleton.mp short
      exact .length _ own
    · simp at short
  · split_ifs at noReturn
    · obtain rfl := List.mem_singleton.mp noReturn
      exact .result own
    · simp at noReturn
  · exact .parameter own declared
  · rw [Subject.throws] at declared
    split_ifs at declared
    · obtain ⟨name, -, resolved⟩ := resolved_of_mem_resolveThrows declared
      exact .exception own resolved
    · simp at declared

private theorem origin_of_judgeInheritance {e : Event} (found : f ∈ s.judgeInheritance e) :
    Origin s comment f.violation := by
  cases e with
  | tag line name argument =>
    simp only [Subject.judgeInheritance] at found
    split_ifs at found
    · obtain ⟨v, wrong, rfl⟩ := List.mem_map.mp found
      exact .inheritance (Option.mem_toList.mp wrong)
    · simp at found
  | _ => simp [Subject.judgeInheritance] at found

private theorem origin_of_judgeEvent {e : Event} (member : e ∈ Comment.events comment)
    (found : f ∈ s.judgeEvent e) : Origin s comment f.violation := by
  cases e with
  | tag line name argument =>
    obtain ⟨v, wrong, rfl⟩ := List.mem_map.mp found
    have isTag : (name, argument) ∈ tags (Comment.events comment) :=
      List.mem_filterMap.mpr ⟨_, member, rfl⟩
    exact .tag isTag (blames_of_judge (Option.mem_toList.mp wrong))
  | _ => simp [Subject.judgeEvent] at found

end Parts

/-- Nothing else is ever found. -/
theorem origin_of_mem_findings {s : Subject} {f : Finding} (found : f ∈ s.findings) :
    ∃ comment, s.declaration.comment = some comment ∧ Origin s comment.text f.violation := by
  obtain ⟨comment, written, -, cause⟩ := mem_findings_iff.mp found
  refine ⟨comment, written, ?_⟩
  cases cause with
  | throws first => exact origin_of_throws first
  | inheritance member wrong => exact origin_of_judgeInheritance wrong
  | event member wrong => exact origin_of_judgeEvent member wrong
  | omission split inherited own left => exact origin_of_omissions own left

end Check

namespace Declaration

variable {d : Declaration} {unit : CompilationUnit} {path : Text} {table : TypeTable}
  {settings : Settings} {x : Diagnostic}

theorem origin_of_mem_commentDiagnostics
    (found : x ∈ d.commentDiagnostics unit path table settings) :
    ∃ comment, d.comment = some comment ∧ ∃ v,
      Check.Origin (d.subject unit table settings) comment.text v ∧
        x = d.diagnose path x.line v := by
  unfold commentDiagnostics at found
  split at found
  · simp at found
  · obtain ⟨f, member, rfl⟩ := List.mem_map.mp found
    obtain ⟨comment, written, origin⟩ := Check.origin_of_mem_findings member
    exact ⟨comment, written, f.violation, origin, rfl⟩

/-- What is reported of a declaration is a missing annotation or found in its comment. -/
theorem origin_of_mem_diagnostics (found : x ∈ d.diagnostics unit path table settings) :
    ∃ v, x = d.diagnose path x.line v ∧
      (v = .missingOverride d.name ∧ d.kind = .method ∨
        ∃ comment, d.comment = some comment ∧
          Check.Origin (d.subject unit table settings) comment.text v) := by
  rcases List.mem_append.mp found with missing | commented
  · unfold missingOverride at missing
    split_ifs at missing with lacks
    · obtain rfl := List.mem_singleton.mp missing
      have overrides := (Bool.and_eq_true_iff.mp (Bool.and_eq_true_iff.mp lacks).1).2
      exact ⟨_, rfl, Or.inl ⟨rfl, eq_of_beq (Bool.and_eq_true_iff.mp overrides).1⟩⟩
    · simp at missing
  · obtain ⟨comment, written, v, origin, diagnosed⟩ := origin_of_mem_commentDiagnostics commented
    exact ⟨v, diagnosed, Or.inr ⟨comment, written, origin⟩⟩

end Declaration

end DocAudit
