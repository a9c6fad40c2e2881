import DocAudit.Diagnostic
import DocAudit.Proofs.Check.Findings
import DocAudit.Proofs.Comment.Sites

/-!
The lines of what is reported. A violation in a comment is reported on a line of that comment: its
first line, or that of the tag or the comment start which it is about.
-/

set_option autoImplicit false

namespace DocAudit

open Comment (Event)

namespace Check

section Bounds

variable {s : Subject} {lines : Nat} {e : Event} {f : Finding}

private theorem startLine_le {seen : List Event} (bounded : ∀ e ∈ seen, e.line ≤ lines) :
    startLine seen ≤ lines := by
  rw [startLine]
  have first : 0 ≤ lines := Nat.zero_le lines
  -- The line that the events so far are at stays in bounds, whichever it is.
  generalize 0 = start at first ⊢
  induction seen generalizing start with
  | nil => exact first
  | cons e seen ih =>
    obtain ⟨head, tail⟩ := List.forall_mem_cons.mp bounded
    rw [List.foldl_cons]
    refine ih tail _ ?_
    cases e with
    | enter line => exact head
    | _ => exact first

private theorem line_of_judgeEvent (found : f ∈ s.judgeEvent e) : f.line = e.line := by
  cases e with
  | tag line name argument =>
    obtain ⟨v, -, rfl⟩ := List.mem_map.mp found
    rfl
  | _ => simp [Subject.judgeEvent] at found

private theorem line_of_judgeInheritance (found : f ∈ s.judgeInheritance e) : f.line = e.line := by
  cases e with
  | tag line name argument =>
    simp only [Subject.judgeInheritance] at found
    split at found
    · obtain ⟨v, -, rfl⟩ := List.mem_map.mp found
      rfl
    · simp at found
  | _ => simp [Subject.judgeInheritance] at found

/-- A finding stands within the comment of its declaration. -/
theorem line_le_of_mem_findings (found : f ∈ s.findings) :
    ∃ comment, s.declaration.comment = some comment ∧ f.line ≤ comment.text.lineFeeds := by
  obtain ⟨comment, written, -, cause⟩ := mem_findings_iff.mp found
  have bounded : ∀ e ∈ Comment.events comment.text, e.line ≤ comment.text.lineFeeds :=
    fun e member => Comment.line_le_lineFeeds member
  refine ⟨comment, written, ?_⟩
  cases cause with
  | throws first => exact Nat.zero_le _
  | inheritance member wrong =>
    rw [line_of_judgeInheritance wrong]
    exact bounded _ member
  | event member wrong =>
    rw [line_of_judgeEvent wrong]
    exact bounded _ member
  | omission split inherited own left =>
    refine startLine_le fun e before => bounded e ?_
    rw [split]
    exact List.mem_append_left _ before

end Bounds

end Check

/-- The comments and tags of every text start at different positions, which their lines are counted
up to, and a violation in the comment of a declaration is reported on a line of that comment. -/
theorem lines_of_starts_and_diagnostics :
    (∀ text : Text, ∃ sites : List (Event × Nat),
      sites.map Prod.fst = (Comment.events text).filter Event.isStart ∧
      (sites.map Prod.snd).Nodup ∧ ∀ site ∈ sites, site.1.StartsAt text site.2) ∧
    ∀ (unit : CompilationUnit) (path : Text) (table : TypeTable) (settings : Settings),
      ∀ d ∈ unit.declarations, ∀ x ∈ d.commentDiagnostics unit path table settings,
        ∃ comment, d.comment = some comment ∧ comment.line ≤ x.line ∧
          x.line ≤ comment.line + comment.text.lineFeeds := by
  refine ⟨Comment.exists_sites, ?_⟩
  intro unit path table settings d member x found
  unfold Declaration.commentDiagnostics at found
  split at found
  · simp at found
  · next comment written =>
    obtain ⟨f, judged, rfl⟩ := List.mem_map.mp found
    obtain ⟨comment', written', within⟩ := Check.line_le_of_mem_findings judged
    obtain rfl : comment = comment' := Option.some.inj (written.symm.trans written')
    exact ⟨comment, written, Nat.le_add_right _ _, Nat.add_le_add_left within _⟩

/-- A class whose comment has an empty tag on its third line. -/
def commentedShop : Declaration where
  kind := .classType
  name := "Shop"
  visibility := .everywhere
  owner := "Shop"
  outermost := "Shop"
  line := 11
  comment := some ⟨"/** Documents the \"shop\n * well\" {@code here}.\n * @since\n */", 7⟩
  parameters := []
  typeVariables := []
  throws := []
  returnType := none
  hasSupertypes := false
  annotations := []

/-- The empty tag is reported on its own line. -/
theorem line_of_empty_tag :
    let unit : CompilationUnit := ⟨none, [], [], [commentedShop]⟩
    let table := TypeTable.empty.declare "Shop" .classType
    let found := commentedShop.diagnose "Shop.java" 9 .malformedSince
    found ∈ commentedShop.commentDiagnostics unit "Shop.java" table {} ∧
      ∃ comment, commentedShop.comment = some comment ∧ comment.line ≤ found.line ∧
        found.line ≤ comment.line + comment.text.lineFeeds := by
  intro unit table found
  have reported : found ∈ commentedShop.commentDiagnostics unit "Shop.java" table {} := by
    decide +kernel
  exact ⟨reported, lines_of_starts_and_diagnostics.2 unit "Shop.java" table {} commentedShop
    List.mem_cons_self found reported⟩

end DocAudit
