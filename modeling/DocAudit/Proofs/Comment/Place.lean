import DocAudit.Comment.Event

/-!
How a reader of comments goes from place to place, token by token, and the tags among the events
that it finds.
-/

set_option autoImplicit false

namespace DocAudit.Comment

/-- The name and argument of each tag among the events, in order. -/
def tags (events : List Event) : List (Text × Text) :=
  events.filterMap fun
    | .tag _ name argument => some (name, argument)
    | _ => none

@[simp] theorem tags_nil : tags [] = [] := rfl

@[simp] theorem tags_append (events more : List Event) :
    tags (events ++ more) = tags events ++ tags more :=
  List.filterMap_append

@[simp] theorem tags_cons_tag (line : Nat) (name argument : Text) (events : List Event) :
    tags (.tag line name argument :: events) = (name, argument) :: tags events := rfl

@[simp] theorem tags_inComment (pending : Text) : tags (Event.inComment pending) = [] := by
  unfold Event.inComment
  split <;> rfl

namespace Place

variable {place next : Place} {t u : Token} {rest : List Token} {now : List Event}

@[simp] theorem events_nil (place : Place) : place.events [] = place.finish := by
  rw [events]

/-- A token that does not open an inline tag is read by itself. -/
theorem events_cons (plain : ∀ u ∈ rest.head?, place.openInline? t u = none) :
    place.events (t :: rest) = (place.step t).1 ++ (place.step t).2.events rest := by
  cases rest with
  | nil => simp [events]
  | cons u rest =>
    rw [events, plain u rfl]

/-- An opening brace is read together with the at sign after it. -/
theorem events_of_open (opened : place.openInline? t u = some (now, next)) :
    place.events (t :: u :: rest) = now ++ next.events rest := by
  rw [events, opened]

/-- An inline tag opens in the text of a comment, or in a section tag that has its name. -/
theorem cases_of_openInline? (opened : place.openInline? t u = some (now, next)) :
    t.isMarker '{' ∧ u.isMarker '@' ∧
      ((∃ pending, place = comment pending ∧ now = Event.inComment pending ∧
        next = inlineTag { line := u.line } 0 none) ∨
      ∃ tag, place = sectionTag tag ∧ tag.name.isSome ∧ now = [] ∧
        next = inlineTag { line := u.line } 0 (some tag)) := by
  unfold openInline? at opened
  split at opened
  · next markers =>
    obtain ⟨isBrace, isAtSign⟩ := Bool.and_eq_true_iff.mp markers
    refine ⟨isBrace, isAtSign, ?_⟩
    cases place with
    | comment pending =>
      obtain ⟨rfl, rfl⟩ := Prod.mk.inj (Option.some.inj opened)
      exact Or.inl ⟨pending, rfl, rfl, rfl⟩
    | sectionTag tag =>
      dsimp only at opened
      split at opened
      · next named =>
        obtain ⟨rfl, rfl⟩ := Prod.mk.inj (Option.some.inj opened)
        exact Or.inr ⟨tag, rfl, named, rfl, rfl⟩
      · simp at opened
    | _ => simp at opened
  · simp at opened

end Place

end DocAudit.Comment
