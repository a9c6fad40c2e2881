import DocAudit.Check

/-!
What a check finds, told without the order in which it goes through a comment.
-/

set_option autoImplicit false

namespace DocAudit.Check

open Comment (Event)

/-- A finding in a comment with these events: an exception of the declaration that cannot be
resolved, what is wrong with one event, or what the events before the end of a comment leave out. -/
inductive FoundIn (s : Subject) (events : List Event) : Finding → Prop where
  | throws {name : Text} : s.throws.2 = some name → FoundIn s events ⟨0, .unresolvedException name⟩
  | inheritance {e : Event} {f : Finding} : e ∈ events → f ∈ s.judgeInheritance e →
      FoundIn s events f
  | event {e : Event} {f : Finding} : e ∈ events → f ∈ s.judgeEvent e → FoundIn s events f
  | omission {before after : List Event} {v : Violation} : events = before ++ .exit :: after →
      inherits events = false → s.isOverride = false → v ∈ s.omissions before →
      FoundIn s events ⟨startLine before, v⟩

variable {s : Subject} {events seen : List Event} {complete : Bool} {f : Finding}

private theorem mem_judgeEvents_iff :
    f ∈ s.judgeEvents complete seen events ↔ (∃ e ∈ events, f ∈ s.judgeEvent e) ∨
      ∃ before after, events = before ++ .exit :: after ∧ complete ∧
        ∃ v ∈ s.omissions (seen ++ before), f = ⟨startLine (seen ++ before), v⟩ := by
  induction events generalizing seen with
  | nil => simp [Subject.judgeEvents]
  | cons e events ih =>
    rw [Subject.judgeEvents, List.mem_append, ih]
    constructor
    · rintro (now | ⟨e', member, found⟩ | ⟨before, after, rfl, whole, v, left, rfl⟩)
      · split at now
        · next atEnd =>
          obtain ⟨isExit, whole⟩ := Bool.and_eq_true_iff.mp atEnd
          obtain ⟨v, left, rfl⟩ := List.mem_map.mp now
          rw [of_decide_eq_true isExit]
          exact Or.inr ⟨[], events, rfl, whole, v, by simpa using left, by simp⟩
        · exact Or.inl ⟨e, List.mem_cons_self, now⟩
      · exact Or.inl ⟨e', List.mem_cons_of_mem e member, found⟩
      · exact Or.inr ⟨e :: before, after, rfl, whole, v, by simpa using left, by simp⟩
    · rintro (⟨e', member, found⟩ | ⟨before, after, split, whole, v, left, rfl⟩)
      · rcases List.mem_cons.mp member with rfl | member
        -- Nothing is wrong with the end of a comment by itself.
        · have other : ¬ (e' = .exit && complete) := by
            rintro atEnd
            obtain rfl := of_decide_eq_true (Bool.and_eq_true_iff.mp atEnd).1
            simp [Subject.judgeEvent] at found
          rw [if_neg other]
          exact Or.inl found
        · exact Or.inr (Or.inl ⟨e', member, found⟩)
      · cases before with
        | nil =>
          obtain ⟨rfl, rfl⟩ := List.cons.inj split
          rw [if_pos (by simp [whole])]
          exact Or.inl (List.mem_map.mpr ⟨v, by simpa using left, by simp⟩)
        | cons first before =>
          obtain ⟨rfl, rfl⟩ := List.cons.inj split
          exact Or.inr (Or.inr ⟨before, after, rfl, whole, v, by simpa using left, by simp⟩)

/-- Exactly these findings are reported, and only where the comment is checked. -/
theorem mem_findings_iff :
    f ∈ s.findings ↔ ∃ comment, s.declaration.comment = some comment ∧ s.isChecked ∧
      FoundIn s (Comment.events comment.text) f := by
  unfold Subject.findings
  cases s.declaration.comment with
  | none => simp
  | some comment =>
    simp only [Option.some.injEq, exists_eq_left']
    split
    · next checked =>
      simp only [checked, true_and, Subject.judgeComment, List.mem_append, mem_judgeEvents_iff,
        List.nil_append]
      constructor
      · rintro ((unresolved | inherited) | wrong | ⟨before, after, split, whole, v, left, rfl⟩)
        · obtain ⟨name, first, rfl⟩ := List.mem_map.mp unresolved
          exact .throws (Option.mem_toList.mp first)
        · obtain ⟨e, member, found⟩ := List.mem_flatMap.mp inherited
          exact .inheritance member found
        · obtain ⟨e, member, found⟩ := wrong
          exact .event member found
        · obtain ⟨inherited, own⟩ := Bool.and_eq_true_iff.mp whole
          exact .omission split (by simpa using inherited) (by simpa using own) left
      · intro found
        cases found with
        | throws first =>
          exact Or.inl (Or.inl (List.mem_map.mpr ⟨_, Option.mem_toList.mpr first, rfl⟩))
        | inheritance member found =>
          exact Or.inl (Or.inr (List.mem_flatMap.mpr ⟨_, member, found⟩))
        | event member found => exact Or.inr (Or.inl ⟨_, member, found⟩)
        | omission split inherited own left =>
          exact Or.inr (Or.inr ⟨_, _, split, by simp [inherited, own], _, left, rfl⟩)
    · next unchecked => simp [unchecked]

end DocAudit.Check
