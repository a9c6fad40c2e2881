import DocAudit.Proofs.Comment.Layout
import DocAudit.Proofs.Comment.Place

/-!
Every text has a layout with its own tokens and its own events. A reader's place decides how the
tokens after it can go on, and one step of the reader adds its token to the front of that.
-/

set_option autoImplicit false

namespace DocAudit.Comment

private theorem plain_join {tokens : List Token} (ne_nil : tokens ≠ [])
    (proper : ∀ t ∈ tokens, t.text ≠ []) :
    Event.plain (Token.join tokens) = [.text (Token.join tokens)] := by
  obtain ⟨t, rest, rfl⟩ := List.exists_cons_of_ne_nil ne_nil
  simp [Event.plain, proper]

private theorem inComment_join {tokens : List Token} (ne_nil : tokens ≠ [])
    (proper : ∀ t ∈ tokens, t.text ≠ []) :
    Event.inComment (Token.join tokens) = [.commentText (Token.join tokens)] := by
  obtain ⟨t, rest, rfl⟩ := List.exists_cons_of_ne_nil ne_nil
  simp [Event.inComment, proper]

/-- Stretches with these tokens and events. -/
private def AsStretches (tokens : List Token) (events : List Event) : Prop :=
  ∃ stretches : List Stretch, tokens = stretches.flatMap Stretch.tokens ∧
    events = stretches.flatMap Stretch.events ∧ ∀ s ∈ stretches, s.Sound

/-- The rest of a comment and what follows it, from the start of a piece on. -/
private def AsPieces (tokens : List Token) (events : List Event) : Prop :=
  ∃ (pieces : List Piece) (tokens' : List Token) (events' : List Event),
    tokens = pieces.flatMap Piece.tokens ++ tokens' ∧
    events = pieces.flatMap Piece.events ++ .exit :: events' ∧
    (∀ piece ∈ pieces, piece.Sound) ∧ AsStretches tokens' events'

private theorem AsPieces.cons (piece : Piece) {tokens : List Token} {events : List Event}
    (sound : piece.Sound) (rest : AsPieces tokens events) :
    AsPieces (piece.tokens ++ tokens) (piece.events ++ events) := by
  obtain ⟨pieces, tokens', events', rfl, rfl, sounds, after⟩ := rest
  refine ⟨piece :: pieces, tokens', events', by simp, by simp, ?_, after⟩
  simpa using ⟨sound, sounds⟩

private theorem AsPieces.exit {tokens : List Token} {events : List Event}
    (after : AsStretches tokens events) : AsPieces tokens (.exit :: events) :=
  ⟨[], tokens, events, by simp, by simp, by simp, after⟩

/-- Text that may follow what is not yet reported, then stretches. -/
private def AsOutside (pending : Text) (tokens : List Token) (events : List Event) : Prop :=
  ∃ (more tokens' : List Token) (events' : List Event), tokens = more ++ tokens' ∧
    events = Event.plain (pending ++ Token.join more) ++ events' ∧
    (∀ t ∈ more, ¬ t.opensComment) ∧ AsStretches tokens' events'

/-- Text that may follow what is not yet reported in a comment, then pieces of it. -/
private def AsComment (pending : Text) (tokens : List Token) (events : List Event) : Prop :=
  ∃ (more tokens' : List Token) (events' : List Event), tokens = more ++ tokens' ∧
    events = Event.inComment (pending ++ Token.join more) ++ events' ∧ AsPieces tokens' events'

/-- The rest of a section tag, then pieces of its comment. -/
private def AsSection (tag : OpenTag) (tokens : List Token) (events : List Event) : Prop :=
  ∃ (body : List SectionPart) (tokens' : List Token) (events' : List Event),
    tokens = body.flatMap SectionPart.tokens ++ tokens' ∧
    events = body.flatMap SectionPart.events ++
      .tag tag.line (tag.name.getD [] ++ Use.name.text (body.filterMap SectionPart.own?))
        (tag.argument ++ Use.argument.text (body.filterMap SectionPart.own?)) :: events' ∧
    SectionTag.Goes tag.name.isSome tag.argument body ∧ AsPieces tokens' events'

/-- The rest of an inline tag, then the rest of what is around it. -/
private def AsInline (tag : OpenTag) (depth : Nat) (around : Option OpenTag) (tokens : List Token)
    (events : List Event) : Prop :=
  ∃ (body : List (Use × Token)) (closing : Option Token) (tokens' : List Token)
    (events' : List Event),
    tokens = body.map Prod.snd ++ closing.toList ++ tokens' ∧
    events = .tag tag.line (tag.name.getD [] ++ Use.name.text body)
      (tag.argument ++ Use.argument.text body) :: events' ∧
    InlineTag.Goes tag.name.isSome tag.argument depth body closing ∧
    match around with
    | none => AsComment [] tokens' events'
    | some s => AsSection s tokens' events'

/-- A tag without a name has no argument yet. -/
private def OpenTag.Ordered (tag : OpenTag) : Prop :=
  tag.name = none → tag.argument = []

/-- How the tokens met from a place on become events, with all tokens accounted for. -/
private def Place.Accounts : Place → List Token → List Event → Prop
  | outside pending, tokens, events => AsOutside pending tokens events
  | comment pending, tokens, events => AsComment pending tokens events
  | sectionTag tag, tokens, events => tag.Ordered → AsSection tag tokens events
  | inlineTag tag depth around, tokens, events =>
    tag.Ordered → (tag.name = none → depth = 0) → (∀ s ∈ around, s.Ordered) →
      AsInline tag depth around tokens events

private theorem AsOutside.stretches {tokens : List Token} {events : List Event}
    (proper : ∀ t ∈ tokens, t.text ≠ []) (rest : AsOutside [] tokens events) :
    AsStretches tokens events := by
  obtain ⟨more, tokens', events', rfl, rfl, noOpening, stretches, rfl, rfl, sounds⟩ := rest
  by_cases empty : more = []
  · subst empty
    exact ⟨stretches, by simp, by simp [Event.plain], sounds⟩
  · refine ⟨.text more :: stretches, by simp [Stretch.tokens], ?_, ?_⟩
    · rw [List.nil_append, plain_join empty fun t member => proper t (by simp [member])]
      simp [Stretch.events]
    · exact List.forall_mem_cons.mpr ⟨⟨empty, noOpening⟩, sounds⟩

private theorem AsComment.pieces (before : List Token) {tokens : List Token} {events : List Event}
    (proper : ∀ t ∈ before ++ tokens, t.text ≠ [])
    (rest : AsComment (Token.join before) tokens events) : AsPieces (before ++ tokens) events := by
  obtain ⟨more, tokens', events', rfl, rfl, after⟩ := rest
  rw [← Token.join_append, ← List.append_assoc]
  by_cases empty : before ++ more = []
  · rw [empty]
    simpa [Event.inComment] using after
  · rw [inComment_join empty fun t member => proper t (by
      rw [← List.append_assoc]
      exact List.mem_append_left _ member)]
    exact AsPieces.cons (.text (before ++ more)) empty after

private theorem AsStretches.cons {stretch : Stretch} {tokens : List Token} {events : List Event}
    (sound : stretch.Sound) (rest : AsStretches tokens events) :
    AsStretches (stretch.tokens ++ tokens) (stretch.events ++ events) := by
  obtain ⟨stretches, rfl, rfl, sounds⟩ := rest
  exact ⟨stretch :: stretches, by simp, by simp, List.forall_mem_cons.mpr ⟨sound, sounds⟩⟩

private theorem AsStretches.comment {t : Token} (more : List Token) {tokens : List Token}
    {events : List Event} (opens : t.opensComment) (proper : ∀ u ∈ t :: more, u.text ≠ [])
    (rest : AsPieces tokens events) :
    AsStretches (t :: more ++ tokens)
      (.enter t.line :: Event.inComment (t.text ++ Token.join more) ++ events) := by
  obtain ⟨pieces, tokens', events', rfl, rfl, sounds, after⟩ := rest
  have sound : (Stretch.comment t (.text (t :: more) :: pieces)).Sound :=
    ⟨opens, ⟨more, pieces, rfl⟩, List.forall_mem_cons.mpr ⟨List.cons_ne_nil t more, sounds⟩⟩
  have whole := after.cons sound
  rw [← Token.join_cons, inComment_join (List.cons_ne_nil t more) proper]
  simpa [Stretch.tokens, Stretch.events, Piece.tokens, Piece.events] using whole

section Steps

variable {t : Token} {tokens : List Token} {events : List Event}

private theorem accounts_stepOutside {pending : Text} (proper : ∀ u ∈ t :: tokens, u.text ≠ [])
    (rest : (Place.stepOutside pending t).2.Accounts tokens events) :
    AsOutside pending (t :: tokens) ((Place.stepOutside pending t).1 ++ events) := by
  obtain ⟨properHead, properTail⟩ := List.forall_mem_cons.mp proper
  unfold Place.stepOutside at rest ⊢
  split_ifs at rest ⊢ with opens whole
  · have after : AsPieces tokens (.exit :: events) :=
      AsPieces.exit (AsOutside.stretches properTail rest)
    have comment := AsStretches.comment [] opens (by simpa using properHead) after
    refine ⟨[], t :: tokens, _, by simp, ?_, by simp, comment⟩
    simp [Event.inComment, properHead]
  · obtain ⟨more, tokens', events', rfl, rfl, after⟩ := rest
    have comment := AsStretches.comment more opens
      (fun u member => proper u (by simp at member ⊢; tauto)) after
    exact ⟨[], _, _, by simp, by simp, by simp, comment⟩
  · obtain ⟨more, tokens', events', rfl, rfl, noOpening, after⟩ := rest
    exact ⟨t :: more, tokens', events', by simp, by simp,
      List.forall_mem_cons.mpr ⟨opens, noOpening⟩, after⟩

private theorem accounts_stepComment {pending : Text} (proper : ∀ u ∈ t :: tokens, u.text ≠ [])
    (rest : (Place.stepComment pending t).2.Accounts tokens events) :
    AsComment pending (t :: tokens) ((Place.stepComment pending t).1 ++ events) := by
  obtain ⟨properHead, properTail⟩ := List.forall_mem_cons.mp proper
  unfold Place.stepComment at rest ⊢
  split_ifs at rest ⊢ with closes atSign
  · refine ⟨[t], tokens, .exit :: events, by simp, by simp [Event.close], ?_⟩
    exact AsPieces.exit (AsOutside.stretches properTail rest)
  · obtain ⟨body, tokens', events', rfl, rfl, goes, after⟩ := rest fun _ => rfl
    have tag := AsPieces.cons (.sectionTag ⟨t, body⟩) ⟨atSign, goes⟩ after
    refine ⟨[], t :: (body.flatMap SectionPart.tokens ++ tokens'), _, by simp, ?_, tag⟩
    simp [Piece.events, SectionTag.events]
  · obtain ⟨more, tokens', events', rfl, rfl, after⟩ := rest
    exact ⟨t :: more, tokens', events', by simp, by simp, after⟩

private theorem accounts_stepSection {tag : OpenTag} (proper : ∀ u ∈ t :: tokens, u.text ≠ [])
    (ordered : tag.Ordered)
    (rest : (Place.stepSection tag t).2.Accounts tokens events) :
    AsSection tag (t :: tokens) ((Place.stepSection tag t).1 ++ events) := by
  obtain ⟨properHead, properTail⟩ := List.forall_mem_cons.mp proper
  unfold Place.stepSection at rest ⊢
  split_ifs at rest ⊢ with lacks lines blank closes
  · have unnamed : tag.name = none := by simp_all [OpenTag.lacks]
    have noArgument := ordered unnamed
    obtain ⟨body, tokens', events', rfl, rfl, goes, after⟩ :=
      rest (by simp [OpenTag.Ordered, OpenTag.named])
    refine ⟨.token .name t :: body, tokens', events', ?_, ?_, ?_, after⟩
    · simp [SectionPart.tokens]
    · simp [SectionPart.events, SectionPart.own?, OpenTag.named, unnamed]
    · rw [unnamed, noArgument]
      simp only [OpenTag.named, noArgument] at goes
      exact .name (by simp_all [OpenTag.lacks]) goes
  · have after := AsComment.pieces [t] (by simpa using proper)
      (by simpa [Place.Accounts] using rest : AsComment (Token.join [t]) tokens events)
    exact ⟨[], t :: tokens, events, by simp, by simp [OpenTag.event], .done, after⟩
  · have named : tag.name.isSome := by
      cases h : tag.name <;> simp_all [OpenTag.lacks]
    have after := AsComment.pieces [] (by simpa using properTail) rest
    refine ⟨[.token .argument t], tokens, events, by simp [SectionPart.tokens], ?_, ?_, after⟩
    · simp [SectionPart.events, SectionPart.own?, OpenTag.event, OpenTag.append]
    · rw [named]
      exact .argument (fun isBlank => absurd isBlank blank) .done
  · have after : AsPieces tokens (.exit :: events) :=
      AsPieces.exit (AsOutside.stretches properTail rest)
    have closing := AsPieces.cons (.text [t]) (List.cons_ne_nil t []) after
    refine ⟨[], t :: tokens, _, by simp, ?_, .done, closing⟩
    simp [OpenTag.event, Event.close, Event.inComment, Piece.events, properHead]
  · unfold OpenTag.appendTrimmed at rest
    split_ifs at rest with leading
    · obtain ⟨body, tokens', events', rfl, rfl, goes, after⟩ := rest ordered
      have noArgument : tag.argument = [] := by simp_all
      refine ⟨.token .dropped t :: body, tokens', events', ?_, ?_, ?_, after⟩
      · simp [SectionPart.tokens]
      · simp [SectionPart.events, SectionPart.own?]
      · rw [noArgument] at goes ⊢
        exact .blank (by simp_all) lines goes
    · have named : tag.name.isSome := by
        cases h : tag.name <;> simp_all [OpenTag.lacks, OpenTag.Ordered]
      obtain ⟨body, tokens', events', rfl, rfl, goes, after⟩ := rest (by
        intro unnamed
        simp_all [OpenTag.append])
      refine ⟨.token .argument t :: body, tokens', events', ?_, ?_, ?_, after⟩
      · simp [SectionPart.tokens]
      · simp [SectionPart.events, SectionPart.own?, OpenTag.append]
      · simp only [OpenTag.append, named] at goes ⊢
        exact .argument (fun blank empty => leading (by simp [blank, empty])) goes

private theorem not_isBlank_of_isMarker {c : Char} (marker : t.isMarker c) : ¬ t.isBlank := by
  intro blank
  simp_all [Token.isMarker, Token.isBlank]

private theorem appendTrimmed_of_kept {tag : OpenTag} (kept : t.isBlank → tag.argument ≠ []) :
    tag.appendTrimmed t = tag.append t := by
  unfold OpenTag.appendTrimmed
  split_ifs with leading
  · simp only [Bool.and_eq_true, List.isEmpty_iff] at leading
    exact absurd leading.1 (kept leading.2)
  · rfl

private theorem ordered_append {tag : OpenTag} (named : tag.name.isSome) :
    (tag.append t).Ordered := by
  intro unnamed
  simp [OpenTag.append] at unnamed
  simp [unnamed] at named

private theorem AsInline.argument {tag : OpenTag} {depth depth' : Nat} {around : Option OpenTag}
    (named : tag.name.isSome) (noStar : ¬ t.isStar) (kept : t.isBlank → tag.argument ≠ [])
    (nests : InlineTag.Nests t depth depth') (orderedAround : ∀ s ∈ around, s.Ordered)
    (rest : (Place.inlineTag (tag.append t) depth' around).Accounts tokens events) :
    AsInline tag depth around (t :: tokens) events := by
  have level : (tag.append t).name = none → depth' = 0 := by
    intro unnamed
    simp [OpenTag.append] at unnamed
    simp [unnamed] at named
  obtain ⟨body, closing, tokens', events', rfl, rfl, goes, after⟩ :=
    rest (ordered_append named) level orderedAround
  refine ⟨(.argument, t) :: body, closing, tokens', events', by simp, ?_, ?_, after⟩
  · simp [OpenTag.append]
  · simp only [OpenTag.append, named] at goes ⊢
    exact .argument noStar kept nests goes

private theorem accounts_stepInline {tag : OpenTag} {depth : Nat} {around : Option OpenTag}
    (proper : ∀ u ∈ t :: tokens, u.text ≠ []) (ordered : tag.Ordered)
    (level : tag.name = none → depth = 0) (orderedAround : ∀ s ∈ around, s.Ordered)
    (rest : (Place.stepInline tag depth around t).2.Accounts tokens events) :
    AsInline tag depth around (t :: tokens)
      ((Place.stepInline tag depth around t).1 ++ events) := by
  unfold Place.stepInline at rest ⊢
  simp only at rest ⊢
  split_ifs at rest ⊢ with star closes lacks opening closing
  · obtain ⟨body, closing, tokens', events', rfl, rfl, goes, after⟩ :=
      rest ordered level orderedAround
    exact ⟨(.dropped, t) :: body, closing, tokens', events', by simp, by simp, .star star goes,
      after⟩
  · cases around with
    | none =>
      exact ⟨[], none, t :: tokens, _, by simp, by simp [OpenTag.event], .cut,
        accounts_stepComment proper rest⟩
    | some s =>
      exact ⟨[], none, t :: tokens, _, by simp, by simp [OpenTag.event], .cut,
        accounts_stepSection proper (orderedAround s rfl) rest⟩
  · have unnamed : tag.name = none := by simp_all [OpenTag.lacks]
    have noArgument := ordered unnamed
    have noDepth := level unnamed
    obtain ⟨body, closing, tokens', events', rfl, rfl, goes, after⟩ :=
      rest (by simp [OpenTag.Ordered, OpenTag.named]) (by simp [OpenTag.named]) orderedAround
    refine ⟨(.name, t) :: body, closing, tokens', events', by simp, ?_, ?_, after⟩
    · simp [OpenTag.named, unnamed]
    · rw [unnamed, noArgument, noDepth]
      simp only [OpenTag.named, noArgument, noDepth] at goes
      exact .name star (by simp_all [OpenTag.lacks]) goes
  · have kept : t.isBlank → tag.argument ≠ [] :=
      fun blank => absurd blank (not_isBlank_of_isMarker opening)
    have named : tag.name.isSome := by
      have noBlank := not_isBlank_of_isMarker opening
      cases h : tag.name <;> simp_all [OpenTag.lacks]
    rw [appendTrimmed_of_kept kept] at rest
    exact AsInline.argument named star kept (.opened opening) orderedAround rest
  · have kept : t.isBlank → tag.argument ≠ [] :=
      fun blank => absurd blank (not_isBlank_of_isMarker closing)
    have named : tag.name.isSome := by
      have noBlank := not_isBlank_of_isMarker closing
      cases h : tag.name <;> simp_all [OpenTag.lacks]
    cases depth with
    | zero =>
      refine ⟨[], some t, tokens, events, by simp, by simp [OpenTag.event], ?_, ?_⟩
      · rw [named]
        exact .closed closing
      · cases around with
        | none => exact rest
        | some s => exact rest (orderedAround s rfl)
    | succ depth =>
      simp only [appendTrimmed_of_kept kept] at rest
      exact AsInline.argument named star kept (.closed closing) orderedAround rest
  · by_cases leading : tag.argument.isEmpty && t.isBlank
    · have unchanged : tag.appendTrimmed t = tag := if_pos leading
      simp only [Bool.and_eq_true, List.isEmpty_iff] at leading
      rw [unchanged] at rest
      obtain ⟨body, closing, tokens', events', rfl, rfl, goes, after⟩ :=
        rest ordered level orderedAround
      refine ⟨(.dropped, t) :: body, closing, tokens', events', by simp, by simp, ?_, after⟩
      rw [leading.1] at goes ⊢
      exact .blank leading.2 goes
    · have kept : t.isBlank → tag.argument ≠ [] := by
        intro blank empty
        simp [blank, empty] at leading
      have named : tag.name.isSome := by
        cases h : tag.name with
        | none => simp_all [OpenTag.lacks, OpenTag.Ordered]
        | some name => rfl
      rw [appendTrimmed_of_kept kept] at rest
      exact AsInline.argument named star kept (.neither opening closing) orderedAround rest

end Steps

private theorem accounts_openInline {place next : Place} {brace atSign : Token} {now : List Event}
    {tokens : List Token} {events : List Event}
    (proper : ∀ u ∈ tokens, u.text ≠ [])
    (opened : place.openInline? brace atSign = some (now, next))
    (rest : next.Accounts tokens events) :
    place.Accounts (brace :: atSign :: tokens) (now ++ events) := by
  obtain ⟨isBrace, isAtSign, ⟨pending, rfl, rfl, rfl⟩ | ⟨tag, rfl, named, rfl, rfl⟩⟩ :=
    Place.cases_of_openInline? opened
  · obtain ⟨body, closing, tokens', events', rfl, rfl, goes, after⟩ :=
      rest (fun _ => rfl) (fun _ => rfl) (by simp)
    have pieces := AsComment.pieces [] (fun t member => proper t (by simp_all)) after
    have tag := AsPieces.cons (.inlineTag ⟨brace, atSign, body, closing⟩)
      ⟨isBrace, isAtSign, goes⟩ pieces
    refine ⟨[], _, _, by simp [Piece.tokens, InlineTag.tokens], ?_, tag⟩
    simp [Piece.events, InlineTag.event]
  · intro ordered
    obtain ⟨inside, closing, tokens', events', rfl, rfl, goes, after⟩ :=
      rest (fun _ => rfl) (fun _ => rfl) (by simpa using ordered)
    obtain ⟨body, tokens', events', rfl, rfl, goesAround, after⟩ := after
    have sound : InlineTag.Sound ⟨brace, atSign, inside, closing⟩ := ⟨isBrace, isAtSign, goes⟩
    refine ⟨.inlineTag ⟨brace, atSign, inside, closing⟩ :: body, tokens', events', ?_, ?_, ?_,
      after⟩
    · simp [SectionPart.tokens, InlineTag.tokens]
    · simp [SectionPart.events, SectionPart.own?, InlineTag.event, List.filterMap_cons]
    · rw [named] at goesAround ⊢
      exact .inlineTag sound goesAround

private theorem accounts_step {place : Place} {t : Token} {tokens : List Token}
    {events : List Event} (proper : ∀ u ∈ t :: tokens, u.text ≠ [])
    (rest : (place.step t).2.Accounts tokens events) :
    place.Accounts (t :: tokens) ((place.step t).1 ++ events) := by
  cases place with
  | outside pending => exact accounts_stepOutside proper rest
  | comment pending => exact accounts_stepComment proper rest
  | sectionTag tag => exact fun ordered => accounts_stepSection proper ordered rest
  | inlineTag tag depth around =>
    exact fun ordered level orderedAround =>
      accounts_stepInline proper ordered level orderedAround rest

private theorem AsPieces.nil : AsPieces [] [.exit] :=
  AsPieces.exit ⟨[], rfl, rfl, by simp⟩

private theorem accounts_finish (place : Place) : place.Accounts [] place.finish := by
  cases place with
  | outside pending =>
    exact ⟨[], [], [], rfl, by simp [Place.finish], by simp, [], rfl, rfl, by simp⟩
  | comment pending =>
    exact ⟨[], [], [.exit], rfl, by simp [Place.finish, Event.close], AsPieces.nil⟩
  | sectionTag tag =>
    intro ordered
    refine ⟨[], [], [.exit], rfl, ?_, .done, AsPieces.nil⟩
    simp [Place.finish, OpenTag.event, Event.close, Event.inComment]
  | inlineTag tag depth around =>
    intro ordered level orderedAround
    cases around with
    | none =>
      refine ⟨[], none, [], [.exit], rfl, ?_, .cut, ?_⟩
      · simp [Place.finish, OpenTag.event, Event.close, Event.inComment]
      · exact ⟨[], [], [.exit], rfl, by simp [Event.inComment], AsPieces.nil⟩
    | some s =>
      refine ⟨[], none, [], s.event :: Event.close [], rfl, ?_, .cut, ?_⟩
      · simp [Place.finish, OpenTag.event]
      · refine ⟨[], [], [.exit], rfl, ?_, .done, AsPieces.nil⟩
        simp [OpenTag.event, Event.close, Event.inComment]

private theorem accounts_events (place : Place) (tokens : List Token)
    (proper : ∀ t ∈ tokens, t.text ≠ []) : place.Accounts tokens (place.events tokens) := by
  induction place, tokens using Place.events.induct with
  | case1 place =>
    rw [Place.events_nil]
    exact accounts_finish place
  | case2 place t now next step =>
    rw [Place.events_cons (by simp)]
    exact accounts_step proper (accounts_finish _)
  | case3 place t u rest now next opened ih =>
    rw [Place.events_of_open opened]
    exact accounts_openInline (fun v member => proper v (by simp [member])) opened
      (ih fun v member => proper v (by simp [member]))
  | case4 place t u rest notOpened now next step ih =>
    rw [Place.events_cons (by simpa using notOpened)]
    refine accounts_step proper ?_
    rw [step]
    exact ih fun v member => proper v (List.mem_cons_of_mem t member)

/-- Every text falls into stretches whose tokens are all its tokens and whose events are its
events. -/
theorem exists_stretches (text : Text) :
    ∃ stretches : List Stretch, stretches.flatMap Stretch.tokens = Token.scan text ∧
      stretches.flatMap Stretch.events = events text ∧ ∀ s ∈ stretches, s.Sound := by
  have proper : ∀ t ∈ Token.scan text, t.text ≠ [] :=
    fun t member => (Token.proper_of_mem_scan member).text_ne_nil
  obtain ⟨stretches, tokensEq, eventsEq, sounds⟩ :=
    AsOutside.stretches proper (accounts_events (.outside []) (Token.scan text) proper)
  exact ⟨stretches, tokensEq.symm, eventsEq.symm, sounds⟩

end DocAudit.Comment
