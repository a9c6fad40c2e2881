import DocAudit.Proofs.Comment.SingleComment
import Mathlib.Data.List.Chain
import Mathlib.Tactic.SplitIfs

/-!
The order of events, for any text whatever: plain text and comments take turns, every comment that
starts also ends, and inside it tags and text take turns.
-/

set_option autoImplicit false

namespace DocAudit.Comment

/-- Whether the event is text inside a comment. -/
def Event.IsCommentText : Event → Prop
  | .commentText _ => True
  | _ => False

/-- Tags and texts inside a comment. No text is empty, and no two texts follow each other. -/
structure IsBody (body : List Event) : Prop where
  inner : ∀ e ∈ body, e.IsInner
  filled : .commentText [] ∉ body
  apart : body.IsChain fun e next => ¬ (e.IsCommentText ∧ next.IsCommentText)

/-- A comment among the events, with the plain text after it. -/
structure Block where
  line : Nat
  opening : Text
  body : List Event
  after : Text

namespace Block

/-- The events of the comment and of the text after it, if there is any. -/
def events (b : Block) : List Event :=
  .enter b.line :: .commentText b.opening :: (b.body ++ .exit :: Event.plain b.after)

/-- Whether the comment starts with its opening mark and is well formed inside. -/
structure Sound (b : Block) : Prop where
  opens : b.opening.startsWith "/**"
  body : IsBody (.commentText b.opening :: b.body)

end Block

theorem isBody_nil : IsBody [] :=
  ⟨by simp, by simp, .nil⟩

theorem IsBody.tag {body : List Event} (isBody : IsBody body) (line : Nat) (name argument : Text) :
    IsBody (.tag line name argument :: body) where
  inner := List.forall_mem_cons.mpr ⟨trivial, isBody.inner⟩
  filled := by
    intro member
    rcases List.mem_cons.mp member with same | later
    · simp at same
    · exact isBody.filled later
  apart := List.isChain_cons.mpr ⟨fun _ _ both => both.1, isBody.apart⟩

theorem IsBody.commentText {body : List Event} (isBody : IsBody body) {text : Text}
    (ne_nil : text ≠ []) (noText : ∀ e ∈ body.head?, ¬ e.IsCommentText) :
    IsBody (.commentText text :: body) where
  inner := List.forall_mem_cons.mpr ⟨trivial, isBody.inner⟩
  filled := by
    intro member
    rcases List.mem_cons.mp member with same | later
    · exact ne_nil (Event.commentText.inj same).symm
    · exact isBody.filled later
  apart := List.isChain_cons.mpr ⟨fun e found both => noText e found both.2, isBody.apart⟩

/-- The events are those of some comments in a row. -/
private def AreBlocks (events : List Event) : Prop :=
  ∃ blocks : List Block, events = blocks.flatMap Block.events ∧ ∀ b ∈ blocks, b.Sound

/-- Text that may follow what is not yet reported outside of comments, then comments. -/
private def FromPlain (pending : Text) (events : List Event) : Prop :=
  ∃ (more : Text) (rest : List Event), events = Event.plain (pending ++ more) ++ rest ∧
    AreBlocks rest

/-- The rest of a comment that does not go on with text, and what follows it. -/
private def FromInside (events : List Event) : Prop :=
  ∃ (body : List Event) (after : Text) (rest : List Event),
    events = body ++ .exit :: (Event.plain after ++ rest) ∧ IsBody body ∧
    (∀ e ∈ body.head?, ¬ e.IsCommentText) ∧ AreBlocks rest

/-- Text that may follow what is not yet reported in a comment, then the rest of the comment. -/
private def FromText (pending : Text) (events : List Event) : Prop :=
  ∃ (more : Text) (rest : List Event), events = Event.inComment (pending ++ more) ++ rest ∧
    FromInside rest

section Parts

variable {events : List Event} {pending : Text}

private theorem FromPlain.exit (rest : FromPlain [] events) : FromInside (.exit :: events) := by
  obtain ⟨more, rest, rfl, blocks⟩ := rest
  exact ⟨[], more, rest, rfl, isBody_nil, by simp, blocks⟩

private theorem FromInside.text (pending : Text) (rest : FromInside events) :
    FromText pending (Event.inComment pending ++ events) :=
  ⟨[], events, by rw [List.append_nil], rest⟩

private theorem FromPlain.close (rest : FromPlain [] events) :
    FromText pending (Event.close pending ++ events) := by
  have closed := rest.exit.text pending
  rwa [Event.close, List.append_assoc]

/-- Behind a tag a comment may go on with text. -/
private theorem FromText.tag (rest : FromText pending events) (line : Nat) (name argument : Text) :
    FromInside (.tag line name argument :: events) := by
  obtain ⟨more, rest, rfl, body, after, rest, rfl, isBody, noText, blocks⟩ := rest
  have head : ∀ {e : Event} {tail : List Event},
      e ∈ (Event.tag line name argument :: tail).head? → ¬ e.IsCommentText := by
    rintro e tail ⟨⟩
    exact id
  unfold Event.inComment
  split_ifs with nothing
  · exact ⟨_, after, rest, rfl, isBody.tag line name argument, fun _ => head, blocks⟩
  · have ne_nil : pending ++ more ≠ [] := by simpa using nothing
    exact ⟨_, after, rest, rfl, (isBody.commentText ne_nil noText).tag line name argument,
      fun _ => head, blocks⟩

private theorem FromInside.tag (rest : FromInside events) (line : Nat) (name argument : Text) :
    FromInside (.tag line name argument :: events) :=
  (rest.text []).tag line name argument

/-- A comment starts with the text that opens it. -/
private theorem FromText.enter (rest : FromText pending events)
    (opens : Text.startsWith pending "/**") (line : Nat) :
    AreBlocks (.enter line :: events) := by
  obtain ⟨more, rest, rfl, body, after, rest, rfl, isBody, noText, blocks, rfl, sounds⟩ := rest
  obtain ⟨tail, split⟩ : ("/**" : Text) <+: pending := List.isPrefixOf_iff_prefix.mp opens
  have ne_nil : pending ++ more ≠ [] := by
    rw [← split]
    simp
  have opens' : Text.startsWith (pending ++ more) "/**" :=
    List.isPrefixOf_iff_prefix.mpr ⟨tail ++ more, by rw [← split, List.append_assoc]⟩
  have sound : Block.Sound ⟨line, pending ++ more, body, after⟩ :=
    ⟨opens', isBody.commentText ne_nil noText⟩
  refine ⟨⟨line, pending ++ more, body, after⟩ :: blocks, ?_,
    List.forall_mem_cons.mpr ⟨sound, sounds⟩⟩
  have reported : Event.inComment (pending ++ more) = [.commentText (pending ++ more)] :=
    if_neg (by simpa using ne_nil)
  rw [reported, List.flatMap_cons, Block.events]
  simp

private theorem AreBlocks.plain (pending : Text) (blocks : AreBlocks events) :
    FromPlain pending (Event.plain pending ++ events) :=
  ⟨[], events, by rw [List.append_nil], blocks⟩

end Parts

namespace Place

/-- What the events met from a place on look like. -/
private def Yields : Place → List Event → Prop
  | outside pending, events => FromPlain pending events
  | comment pending, events => FromText pending events
  | sectionTag _, events => FromInside events
  | inlineTag _ _ _, events => FromInside events

private theorem yields_finish (place : Place) : place.Yields place.finish := by
  have nothing : FromPlain [] [] := AreBlocks.plain [] ⟨[], rfl, by simp⟩
  have closed : ∀ pending, FromText pending (Event.close pending) := by
    intro pending
    have ended : FromText pending (Event.close pending ++ []) := nothing.close
    rwa [List.append_nil] at ended
  cases place with
  | outside pending =>
    have ended : FromPlain pending (Event.plain pending ++ []) :=
      AreBlocks.plain pending ⟨[], rfl, by simp⟩
    rwa [List.append_nil] at ended
  | comment pending => exact closed pending
  | sectionTag tag => exact (closed []).tag _ _ _
  | inlineTag tag depth around =>
    cases around with
    | none => exact (closed []).tag _ _ _
    | some around => exact ((closed []).tag _ _ _).tag _ _ _

section Steps

variable {t : Token} {events : List Event}

private theorem yields_stepOutside {pending : Text}
    (rest : (stepOutside pending t).2.Yields events) :
    FromPlain pending ((stepOutside pending t).1 ++ events) := by
  unfold stepOutside at rest ⊢
  split_ifs at rest ⊢ with opens whole
  · have starts : Text.startsWith t.text "/**" := (Bool.and_eq_true_iff.mp opens).1
    have ne_nil : t.text ≠ [] := by
      intro empty
      rw [empty] at starts
      exact absurd starts (by decide)
    have inside : FromText t.text (Event.inComment t.text ++ .exit :: events) :=
      (FromPlain.exit rest).text t.text
    have reported : Event.inComment t.text = [.commentText t.text] :=
      if_neg (by simpa using ne_nil)
    rw [reported] at inside
    simpa using (inside.enter starts t.line).plain pending
  · have starts : Text.startsWith t.text "/**" := (Bool.and_eq_true_iff.mp opens).1
    simpa using (FromText.enter rest starts t.line).plain pending
  · obtain ⟨more, rest, rfl, blocks⟩ := rest
    exact ⟨t.text ++ more, rest, by simp, blocks⟩

private theorem yields_stepComment {pending : Text}
    (rest : (stepComment pending t).2.Yields events) :
    FromText pending ((stepComment pending t).1 ++ events) := by
  unfold stepComment at rest ⊢
  split_ifs at rest ⊢ with closes atSign
  · have ended : FromText (pending ++ t.text) (Event.close (pending ++ t.text) ++ events) :=
      FromPlain.close rest
    obtain ⟨more, rest, split, inside⟩ := ended
    exact ⟨t.text ++ more, rest, by rw [split, List.append_assoc], inside⟩
  · exact FromInside.text pending rest
  · obtain ⟨more, rest, rfl, inside⟩ := rest
    exact ⟨t.text ++ more, rest, by simp, inside⟩

private theorem yields_stepSection {tag : OpenTag} (rest : (stepSection tag t).2.Yields events) :
    FromInside ((stepSection tag t).1 ++ events) := by
  unfold stepSection at rest ⊢
  split_ifs at rest ⊢ with lacks lines blank closes
  · exact rest
  · exact FromText.tag rest _ _ _
  · exact FromText.tag rest _ _ _
  · exact (FromPlain.close rest).tag _ _ _
  · exact rest

private theorem yields_stepInline {tag : OpenTag} {depth : Nat} {around : Option OpenTag}
    (rest : (stepInline tag depth around t).2.Yields events) :
    FromInside ((stepInline tag depth around t).1 ++ events) := by
  unfold stepInline at rest ⊢
  simp only at rest ⊢
  split_ifs at rest ⊢ with star closes lacks opening closing
  · exact rest
  · cases around with
    | none => exact (yields_stepComment rest).tag _ _ _
    | some around => exact (yields_stepSection rest).tag _ _ _
  · exact rest
  · exact rest
  · cases depth with
    | zero =>
      cases around with
      | none => exact FromText.tag rest _ _ _
      | some around => exact FromInside.tag rest _ _ _
    | succ depth => exact rest
  · exact rest

private theorem yields_step {place : Place} (rest : (place.step t).2.Yields events) :
    place.Yields ((place.step t).1 ++ events) := by
  cases place with
  | outside pending => exact yields_stepOutside rest
  | comment pending => exact yields_stepComment rest
  | sectionTag tag => exact yields_stepSection rest
  | inlineTag tag depth around => exact yields_stepInline rest

private theorem yields_openInline {place next : Place} {u : Token} {now : List Event}
    (opened : place.openInline? t u = some (now, next)) (rest : next.Yields events) :
    place.Yields (now ++ events) := by
  obtain ⟨-, -, ⟨pending, rfl, rfl, rfl⟩ | ⟨tag, rfl, -, rfl, rfl⟩⟩ := cases_of_openInline? opened
  · exact FromInside.text pending rest
  · exact rest

end Steps

private theorem yields_events (place : Place) (tokens : List Token) :
    place.Yields (place.events tokens) := by
  induction place, tokens using Place.events.induct with
  | case1 place =>
    rw [events_nil]
    exact yields_finish place
  | case2 place t now next step =>
    rw [events_cons (by simp)]
    exact yields_step (yields_finish _)
  | case3 place t u rest now next opened ih =>
    rw [events_of_open opened]
    exact yields_openInline opened ih
  | case4 place t u rest notOpened now next step ih =>
    rw [events_cons (by simpa using notOpened)]
    refine yields_step ?_
    rw [step]
    exact ih

end Place

/-- Every text gives plain text and comments in turn. Each comment has one start, at once followed
by the text that opens it, then tags and texts, and one end. A text that is a single comment gives
its start on the first line, tags and texts, and its end. -/
theorem events_in_blocks (text : Text) :
    (∃ (before : Text) (blocks : List Block),
      events text = Event.plain before ++ blocks.flatMap Block.events ∧
      ∀ b ∈ blocks, b.Sound) ∧
    (IsDocComment text →
      ∃ body, events text = .enter 0 :: (body ++ [.exit]) ∧ ∀ e ∈ body, e.IsInner) := by
  refine ⟨?_, IsDocComment.events_eq⟩
  obtain ⟨before, rest, split, blocks, rfl, sounds⟩ :=
    Place.yields_events (.outside []) (Token.scan text)
  exact ⟨before, blocks, split, sounds⟩

/-- A comment that ends inside an inline tag. -/
def endsInsideTag : Text :=
  "/** Adds \x7b@code b\n@see more */"

/-- The open tag ends with its comment. -/
theorem events_open_inline_tag :
    IsDocComment endsInsideTag ∧
      ∃ body, events endsInsideTag = .enter 0 :: (body ++ [.exit]) ∧ ∀ e ∈ body, e.IsInner := by
  have doc : IsDocComment endsInsideTag := by
    refine ⟨?_, ?_, ?_, ?_⟩ <;> decide +kernel
  exact ⟨doc, (events_in_blocks endsInsideTag).2 doc⟩

end DocAudit.Comment
