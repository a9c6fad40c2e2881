import DocAudit.Proofs.Comment.LayoutOfText
import Mathlib.Data.List.Chain

/-!
No text gets lost. Every token of a text goes into one event or is dropped by one tag, and a text
without inline tags can be written again from its events.
-/

set_option autoImplicit false

namespace DocAudit.Comment

/-- White space within a line. -/
def IsGap (text : Text) : Prop :=
  ∀ c ∈ text, Text.isBlank c ∧ c ≠ '\n'

/-- Whether an event may have been written like this. A tag is an at sign, its name and its
argument, with gaps between them. -/
inductive Event.Writes : Event → Text → Prop where
  | text (text : Text) : Writes (.text text) text
  | enter (line : Nat) : Writes (.enter line) []
  | commentText (text : Text) : Writes (.commentText text) text
  | tag (line : Nat) {name argument before between : Text} : IsGap before → IsGap between →
      Writes (.tag line name argument) ('@' :: (before ++ name ++ between ++ argument))
  | exit : Writes .exit []

/-- Whether the events, one after the other, may have been written like this. -/
inductive Event.WriteAll : List Event → Text → Prop where
  | nil : WriteAll [] []
  | cons {event : Event} {events : List Event} {text rest : Text} :
      event.Writes text → WriteAll events rest → WriteAll (event :: events) (text ++ rest)

/-- No opening brace is directly followed by an at sign. -/
def HasNoInlineTag (tokens : List Token) : Prop :=
  tokens.IsChain fun t u => ¬ (t.isMarker '{' ∧ u.isMarker '@')

instance (tokens : List Token) : Decidable (HasNoInlineTag tokens) :=
  inferInstanceAs (Decidable (tokens.IsChain _))

theorem isGap_nil : IsGap [] := by simp [IsGap]

theorem IsGap.append {text more : Text} (gap : IsGap text) (gap' : IsGap more) :
    IsGap (text ++ more) := by
  intro c member
  rcases List.mem_append.mp member with first | second
  · exact gap c first
  · exact gap' c second

private theorem Token.Proper.isGap {t : Token} (proper : t.Proper) (blank : t.isBlank)
    (noBreak : ¬ t.spansLines) : IsGap t.text := by
  intro c member
  refine ⟨proper.blank blank c member, ?_⟩
  rintro rfl
  exact noBreak (by simpa [Token.spansLines] using member)

namespace Event.WriteAll

theorem append {events more : List Event} {text rest : Text} (first : WriteAll events text)
    (second : WriteAll more rest) : WriteAll (events ++ more) (text ++ rest) := by
  induction first with
  | nil => exact second
  | cons writes _ ih =>
    rw [List.append_assoc]
    exact .cons writes ih

theorem single {event : Event} {text : Text} (writes : event.Writes text) :
    WriteAll [event] text := by
  simpa using cons writes nil

/-- What is written piece by piece is written as a whole. -/
theorem flatMap {α : Type} (tokens : α → List Token) (events : α → List Event) (pieces : List α)
    (writes : ∀ piece ∈ pieces, WriteAll (events piece) (Token.join (tokens piece))) :
    WriteAll (pieces.flatMap events) (Token.join (pieces.flatMap tokens)) := by
  induction pieces with
  | nil => exact nil
  | cons piece pieces ih =>
    obtain ⟨first, later⟩ := List.forall_mem_cons.mp writes
    rw [List.flatMap_cons, List.flatMap_cons, Token.join_append]
    exact append first (ih later)

end Event.WriteAll

theorem HasNoInlineTag.of_infix {tokens part : List Token} (none : HasNoInlineTag tokens)
    (isInfix : part <:+: tokens) : HasNoInlineTag part :=
  List.IsChain.infix none isInfix

private theorem InlineTag.Sound.hasInlineTag {tag : InlineTag} (sound : tag.Sound) :
    ¬ HasNoInlineTag tag.tokens := by
  intro none
  obtain ⟨notBoth, -⟩ := List.isChain_cons_cons.mp none
  exact notBoth ⟨sound.brace, sound.atSign⟩

/-- A section tag goes on with a gap up to its name, which may be there already, the name, a gap up
to its argument, which may have begun, and the argument. -/
private theorem SectionTag.Goes.exists_gaps {named : Bool} {argument : Text}
    {body : List SectionPart} (goes : SectionTag.Goes named argument body)
    (proper : ∀ t ∈ body.flatMap SectionPart.tokens, t.Proper)
    (none : HasNoInlineTag (body.flatMap SectionPart.tokens)) :
    ∃ before between, IsGap before ∧ IsGap between ∧
      Token.join (body.flatMap SectionPart.tokens) =
        before ++ Use.name.text (body.filterMap SectionPart.own?) ++ between ++
          Use.argument.text (body.filterMap SectionPart.own?) ∧
      (named → before = [] ∧ Use.name.text (body.filterMap SectionPart.own?) = []) ∧
      (argument ≠ [] → between = []) := by
  induction goes with
  | done => exact ⟨[], [], isGap_nil, isGap_nil, by simp⟩
  | @blank named t rest isBlank noBreak _ ih =>
    simp only [List.flatMap_cons, SectionPart.tokens, List.singleton_append] at proper none
    have gap := (proper t List.mem_cons_self).isGap isBlank noBreak
    obtain ⟨before, between, isGap, isGap', written, ofNamed, -⟩ :=
      ih (fun u member => proper u (List.mem_cons_of_mem t member))
        (none.of_infix (List.suffix_cons t _).isInfix)
    cases named with
    | false =>
      refine ⟨t.text ++ before, between, gap.append isGap, isGap', ?_, by simp, by simp⟩
      simp [SectionPart.tokens, SectionPart.own?, written]
    | true =>
      obtain ⟨rfl, noName⟩ := ofNamed rfl
      refine ⟨[], t.text ++ between, isGap_nil, gap.append isGap', ?_, ?_, by simp⟩
      · simp [SectionPart.tokens, SectionPart.own?, written, noName]
      · simp [SectionPart.own?, noName]
  | @name t rest _ _ ih =>
    simp only [List.flatMap_cons, SectionPart.tokens, List.singleton_append] at proper none
    obtain ⟨before, between, -, isGap', written, ofNamed, -⟩ :=
      ih (fun u member => proper u (List.mem_cons_of_mem t member))
        (none.of_infix (List.suffix_cons t _).isInfix)
    obtain ⟨rfl, noName⟩ := ofNamed rfl
    refine ⟨[], between, isGap_nil, isGap', ?_, by simp, by simp⟩
    simp [SectionPart.tokens, SectionPart.own?, written, noName]
  | @argument argument t rest kept _ ih =>
    simp only [List.flatMap_cons, SectionPart.tokens, List.singleton_append] at proper none
    have ne_nil := (proper t List.mem_cons_self).text_ne_nil
    obtain ⟨before, between, -, -, written, ofNamed, ofArgument⟩ :=
      ih (fun u member => proper u (List.mem_cons_of_mem t member))
        (none.of_infix (List.suffix_cons t _).isInfix)
    obtain ⟨rfl, noName⟩ := ofNamed rfl
    obtain rfl := ofArgument (by simp [ne_nil])
    refine ⟨[], [], isGap_nil, isGap_nil, ?_, ?_, by simp⟩
    · simp [SectionPart.tokens, SectionPart.own?, written, noName]
    · simp [SectionPart.own?, noName]
  | @inlineTag argument tag rest sound _ ih =>
    simp only [List.flatMap_cons, SectionPart.tokens] at none
    exact absurd (none.of_infix (List.prefix_append tag.tokens _).isInfix) sound.hasInlineTag

private theorem SectionTag.Goes.no_events {named : Bool} {argument : Text}
    {body : List SectionPart} (goes : SectionTag.Goes named argument body)
    (none : HasNoInlineTag (body.flatMap SectionPart.tokens)) :
    body.flatMap SectionPart.events = [] := by
  induction goes with
  | done => rfl
  | blank _ _ _ ih | name _ _ ih | argument _ _ ih =>
    exact ih (none.of_infix (List.suffix_cons _ _).isInfix)
  | @inlineTag argument tag rest sound _ ih =>
    exact absurd (none.of_infix (List.prefix_append tag.tokens _).isInfix) sound.hasInlineTag

private theorem Piece.writeAll {piece : Piece} (sound : piece.Sound)
    (proper : ∀ t ∈ piece.tokens, t.Proper) (none : HasNoInlineTag piece.tokens) :
    Event.WriteAll piece.events (Token.join piece.tokens) := by
  cases piece with
  | text tokens => exact .single (.commentText _)
  | inlineTag tag => exact absurd none (InlineTag.Sound.hasInlineTag sound)
  | sectionTag tag =>
    obtain ⟨atSign, body⟩ := tag
    obtain ⟨isAtSign, goes⟩ := sound
    simp only [Piece.tokens, SectionTag.tokens] at proper none ⊢
    obtain ⟨before, between, isGap, isGap', written, -, -⟩ :=
      goes.exists_gaps (fun t member => proper t (List.mem_cons_of_mem atSign member))
        (none.of_infix (List.suffix_cons atSign _).isInfix)
    have noEvents := goes.no_events (none.of_infix (List.suffix_cons atSign _).isInfix)
    have atSignText : atSign.text = ['@'] := by
      simp_all [Token.isMarker]
    rw [Piece.events, SectionTag.events, noEvents, Token.join_cons, written, atSignText]
    exact .single (.tag _ isGap isGap')

private theorem Stretch.writeAll {stretch : Stretch} (sound : stretch.Sound)
    (proper : ∀ t ∈ stretch.tokens, t.Proper) (none : HasNoInlineTag stretch.tokens) :
    Event.WriteAll stretch.events (Token.join stretch.tokens) := by
  cases stretch with
  | text tokens => exact .single (.text _)
  | comment opening pieces =>
    obtain ⟨-, -, sounds⟩ := sound
    have inside : Event.WriteAll (pieces.flatMap Piece.events)
        (Token.join (pieces.flatMap Piece.tokens)) := by
      refine Event.WriteAll.flatMap _ _ _ fun piece member => ?_
      have isInfix : piece.tokens <:+: pieces.flatMap Piece.tokens :=
        List.infix_of_mem_flatten (List.mem_map_of_mem member)
      exact Piece.writeAll (sounds piece member) (fun t mem => proper t (isInfix.subset mem))
        (none.of_infix isInfix)
    have whole := Event.WriteAll.cons (.enter opening.line)
      (inside.append (Event.WriteAll.single .exit))
    simpa [Stretch.events, Stretch.tokens] using whole

/-- Nothing is lost, doubled or made up: every text has a layout. It uses each token once, for the
text, name or argument of one event or as a token that one tag drops, and gives the events of the
text in order. Without inline tags the text can be written again from its events alone. -/
theorem tokens_accounted_and_text_rewritten (text : Text) :
    (∃ stretches : List Stretch, stretches.flatMap Stretch.tokens = Token.scan text ∧
      stretches.flatMap Stretch.events = events text ∧ ∀ s ∈ stretches, s.Sound) ∧
    (HasNoInlineTag (Token.scan text) → Event.WriteAll (events text) text) := by
  refine ⟨exists_stretches text, fun none => ?_⟩
  obtain ⟨stretches, tokensEq, eventsEq, sounds⟩ := exists_stretches text
  have whole : Event.WriteAll (stretches.flatMap Stretch.events)
      (Token.join (stretches.flatMap Stretch.tokens)) := by
    refine Event.WriteAll.flatMap _ _ _ fun stretch member => ?_
    have isInfix : stretch.tokens <:+: stretches.flatMap Stretch.tokens :=
      List.infix_of_mem_flatten (List.mem_map_of_mem member)
    rw [tokensEq] at isInfix
    exact Stretch.writeAll (sounds stretch member)
      (fun t mem => Token.proper_of_mem_scan (isInfix.subset mem)) (none.of_infix isInfix)
  rwa [eventsEq, tokensEq, Token.join_scan] at whole

/-- A comment with a tag in a line of its own, between plain texts. -/
theorem text_rewritten_section_tag :
    let text : Text := "a {b}\n/** c\n * @return  the {d}\n */ e"
    HasNoInlineTag (Token.scan text) ∧ Event.WriteAll (events text) text := by
  have none : HasNoInlineTag (Token.scan "a {b}\n/** c\n * @return  the {d}\n */ e") := by
    decide +kernel
  exact ⟨none, (tokens_accounted_and_text_rewritten _).2 none⟩

end DocAudit.Comment
