import DocAudit.Proofs.Comment.LayoutOfText
import Mathlib.Data.List.Nodup
import Mathlib.Order.Interval.Set.LinearOrder

/-!
Where in a text its comments and tags start. Each of their events has a position of its own, and its
line counts the line feeds before that position.
-/

set_option autoImplicit false

namespace DocAudit.Comment

/-- The tokens from this position of the text on begin with these. -/
def TokensAt (text : Text) (position : Nat) (tokens : List Token) : Prop :=
  ∃ before after, Token.scan text = before ++ tokens ++ after ∧
    (Token.join before).length = position

namespace Event

/-- Whether the event is the start of a comment or a tag. -/
def isStart : Event → Bool
  | .enter _ | .tag _ _ _ => true
  | _ => false

/-- Whether what the event reports starts at this position of the text. Between the at sign of a tag
and its name white space is skipped, and in an inline tag each token that is a star. -/
inductive StartsAt (text : Text) (position : Nat) : Event → Prop where
  | enter : Text.startsWith (text.drop position) "/**" →
    StartsAt text position (.enter (Text.lineFeeds (text.take position)))
  | tag {skipped : List Token} {name argument rest : Text} :
    text.drop position = '@' :: (Token.join skipped ++ name ++ rest) →
    TokensAt text (position + 1) skipped →
    (∀ t ∈ skipped, t.isBlank ∨ Text.endsWith (text.take position) ['{'] ∧ t.isStar) →
    StartsAt text position (.tag (Text.lineFeeds (text.take position)) name argument)

end Event

section Scanned

variable {text : Text} {before after tokens : List Token} {t : Token}

theorem take_length_join (whole : Token.scan text = before ++ after) :
    text.take (Token.join before).length = Token.join before := by
  rw [← Token.join_scan text, whole, Token.join_append, List.take_left]

theorem drop_length_join (whole : Token.scan text = before ++ after) :
    text.drop (Token.join before).length = Token.join after := by
  rw [← Token.join_scan text, whole, Token.join_append, List.drop_left]

/-- A token that opens a comment is a word, so it stands in one line. -/
private theorem lineFeeds_of_opensComment (proper : t.Proper) (opens : t.opensComment) :
    t.text.lineFeeds = 0 := by
  obtain ⟨inside, start⟩ : ("/**" : Text) <+: t.text :=
    List.isPrefixOf_iff_prefix.mp (Bool.and_eq_true_iff.mp opens).1
  have head : t.text = '/' :: '*' :: '*' :: inside := start.symm
  refine Text.lineFeeds_eq_zero fun member => ?_
  cases kind : t.kind with
  | blank =>
    have blank := proper.blank (beq_iff_eq.mpr kind) '/' (by rw [head]; exact List.mem_cons_self)
    exact absurd blank (by decide)
  | quoted =>
    have quote := proper.quoted kind
    simp [head] at quote
  | marker =>
    obtain ⟨c, single, -⟩ := proper.marker kind
    rw [head] at single
    simp at single
  | word => exact absurd (proper.word kind _ member) (by decide)

theorem Token.text_of_isMarker {c : Char} (marker : t.isMarker c) : t.text = [c] :=
  beq_iff_eq.mp (Bool.and_eq_true_iff.mp marker).2

end Scanned

section Names

private theorem InlineTag.Goes.name_eq_nil {argument : Text} {depth : Nat}
    {body : List (Use × Token)} {closing : Option Token} {named : Bool}
    (goes : InlineTag.Goes named argument depth body closing) (isNamed : named) :
    Use.name.text body = [] := by
  induction goes with
  | cut | closed => rfl
  | star _ _ ih | blank _ _ ih => simpa using ih isNamed
  | name => exact absurd isNamed (by decide)
  | argument _ _ _ _ ih => simpa using ih rfl

/-- Up to its name an inline tag has only white space and stars. -/
private theorem InlineTag.Goes.exists_skipped {argument : Text} {depth : Nat}
    {body : List (Use × Token)} {closing : Option Token} {named : Bool}
    (goes : InlineTag.Goes named argument depth body closing) :
    ∃ skipped rest, body.map Prod.snd = skipped ++ rest ∧
      (∀ t ∈ skipped, t.isBlank ∨ t.isStar) ∧ Use.name.text body <+: Token.join rest := by
  induction goes with
  | cut | closed => exact ⟨[], [], rfl, by simp, List.nil_prefix⟩
  | @star _ _ _ t _ _ star _ ih =>
    obtain ⟨skipped, rest, split, only, name⟩ := ih
    refine ⟨t :: skipped, rest, by simp [split], ?_, by simpa using name⟩
    exact List.forall_mem_cons.mpr ⟨Or.inr star, only⟩
  | @blank _ _ t _ _ blank _ ih =>
    obtain ⟨skipped, rest, split, only, name⟩ := ih
    refine ⟨t :: skipped, rest, by simp [split], ?_, by simpa using name⟩
    exact List.forall_mem_cons.mpr ⟨Or.inl blank, only⟩
  | @name _ t rest _ _ _ goes ih =>
    refine ⟨[], t :: rest.map Prod.snd, rfl, by simp, ?_⟩
    simp [goes.name_eq_nil rfl]
  | @argument _ _ _ t rest _ _ _ _ goes ih =>
    refine ⟨[], t :: rest.map Prod.snd, rfl, by simp, ?_⟩
    simp [goes.name_eq_nil rfl]

private theorem SectionTag.Goes.name_eq_nil {argument : Text} {body : List SectionPart}
    {named : Bool} (goes : SectionTag.Goes named argument body) (isNamed : named) :
    Use.name.text (body.filterMap SectionPart.own?) = [] := by
  induction goes with
  | done => rfl
  | blank _ _ _ ih => simpa [SectionPart.own?] using ih isNamed
  | name => exact absurd isNamed (by decide)
  | argument _ _ ih => simpa [SectionPart.own?] using ih rfl
  | inlineTag _ _ ih => simpa [SectionPart.own?, List.filterMap_cons] using ih rfl

/-- Up to its name a section tag has only white space. -/
private theorem SectionTag.Goes.exists_skipped {argument : Text} {body : List SectionPart}
    {named : Bool} (goes : SectionTag.Goes named argument body) :
    ∃ skipped rest, body.flatMap SectionPart.tokens = skipped ++ rest ∧
      (∀ t ∈ skipped, t.isBlank) ∧
      Use.name.text (body.filterMap SectionPart.own?) <+: Token.join rest := by
  induction goes with
  | done => exact ⟨[], [], rfl, by simp, List.nil_prefix⟩
  | @blank _ t rest blank _ _ ih =>
    obtain ⟨skipped, after, split, only, name⟩ := ih
    refine ⟨t :: skipped, after, by simp [SectionPart.tokens, split], ?_, ?_⟩
    · exact List.forall_mem_cons.mpr ⟨blank, only⟩
    · simpa [SectionPart.own?] using name
  | @name t rest _ goes ih =>
    refine ⟨[], t :: rest.flatMap SectionPart.tokens, rfl, by simp, ?_⟩
    simp [SectionPart.own?, goes.name_eq_nil rfl]
  | argument _ goes | inlineTag _ goes =>
    refine ⟨[], _, (List.nil_append _).symm, by simp, ?_⟩
    simp [SectionPart.own?, List.filterMap_cons, goes.name_eq_nil rfl]

end Names

section Regions

variable {text : Text} {before after tokens more : List Token} {events rest : List Event}
  {region region' : Set Nat}

/-- The starts among the events have different positions in this region of the text. -/
private def Sited (text : Text) (region : Set Nat) (events : List Event) : Prop :=
  ∃ sites : List (Event × Nat), sites.map Prod.fst = events.filter Event.isStart ∧
    (sites.map Prod.snd).Nodup ∧ ∀ site ∈ sites, site.2 ∈ region ∧ site.1.StartsAt text site.2

private theorem Sited.none (noStart : ∀ e ∈ events, e.isStart = false) :
    Sited text region events := by
  refine ⟨[], ?_, by simp, by simp⟩
  have nothing : events.filter Event.isStart = [] :=
    List.filter_eq_nil_iff.mpr fun e member => Bool.eq_false_iff.mp (noStart e member)
  rw [nothing, List.map_nil]

private theorem Sited.congr (sited : Sited text region events)
    (same : events.filter Event.isStart = rest.filter Event.isStart) : Sited text region rest := by
  rwa [Sited, ← same]

private theorem Sited.single {e : Event} {position : Nat} (isStart : e.isStart)
    (inside : position ∈ region) (starts : e.StartsAt text position) : Sited text region [e] :=
  ⟨[(e, position)], by simp [isStart], by simp, by simp [inside, starts]⟩

private theorem Sited.append (first : Sited text region events) (second : Sited text region' rest)
    (apart : ∀ position ∈ region, position ∉ region') :
    Sited text (region ∪ region') (events ++ rest) := by
  obtain ⟨sites, events_eq, nodup, starts⟩ := first
  obtain ⟨sites', events_eq', nodup', starts'⟩ := second
  refine ⟨sites ++ sites', ?_, ?_, ?_⟩
  · rw [List.map_append, List.filter_append, events_eq, events_eq']
  · rw [List.map_append]
    refine List.nodup_append.mpr ⟨nodup, nodup', ?_⟩
    intro position member position' member'
    obtain ⟨site, isSite, rfl⟩ := List.mem_map.mp member
    obtain ⟨site', isSite', rfl⟩ := List.mem_map.mp member'
    have other := apart site.2 (starts site isSite).1
    exact (ne_of_mem_of_not_mem (starts' site' isSite').1 other).symm
  · intro site member
    rcases List.mem_append.mp member with member | member
    · exact ⟨Or.inl (starts site member).1, (starts site member).2⟩
    · exact ⟨Or.inr (starts' site member).1, (starts' site member).2⟩

/-- The positions that some tokens take up behind others. -/
private def span (before tokens : List Token) : Set Nat :=
  Set.Ico (Token.join before).length (Token.join (before ++ tokens)).length

private theorem length_join_le (before tokens : List Token) :
    (Token.join before).length ≤ (Token.join (before ++ tokens)).length := by
  rw [Token.join_append, List.length_append]
  exact Nat.le_add_right _ _

private theorem span_append :
    span before (tokens ++ more) = span before tokens ∪ span (before ++ tokens) more := by
  rw [span, span, span, List.append_assoc]
  refine (Set.Ico_union_Ico_eq_Ico (length_join_le _ _) ?_).symm
  rw [← List.append_assoc]
  exact length_join_le _ _

private theorem span_cons {t : Token} :
    span before (t :: tokens) = span before [t] ∪ span (before ++ [t]) tokens :=
  @span_append before [t] tokens

private theorem not_mem_span_append {position : Nat} (inside : position ∈ span before tokens) :
    position ∉ span (before ++ tokens) more := by
  intro behind
  exact absurd inside.2 (Nat.not_lt_of_ge behind.1)

private theorem start_mem_span {t : Token} (ne_nil : t.text ≠ []) :
    (Token.join before).length ∈ span before (t :: tokens) := by
  have positive : 0 < t.text.length := List.length_pos_iff.mpr ne_nil
  refine ⟨Nat.le_refl _, ?_⟩
  simp only [Token.join_append, Token.join_cons, List.length_append]
  omega

private theorem Sited.append_span (first : Sited text (span before tokens) events)
    (second : Sited text (span (before ++ tokens) more) rest) :
    Sited text (span before (tokens ++ more)) (events ++ rest) := by
  rw [span_append]
  exact first.append second fun _ => not_mem_span_append

/-- A row of parts has the starts of all its parts. -/
private theorem Sited.flatMap {α : Type} (tokensOf : α → List Token) (eventsOf : α → List Event)
    {parts : List α} (each : ∀ part ∈ parts, ∀ before after,
      Token.scan text = before ++ (tokensOf part ++ after) →
      Sited text (span before (tokensOf part)) (eventsOf part))
    (whole : Token.scan text = before ++ (parts.flatMap tokensOf ++ after)) :
    Sited text (span before (parts.flatMap tokensOf)) (parts.flatMap eventsOf) := by
  induction parts generalizing before with
  | nil => exact Sited.none (by simp)
  | cons part parts ih =>
    obtain ⟨first, later⟩ := List.forall_mem_cons.mp each
    rw [List.flatMap_cons, List.append_assoc] at whole
    have behind : Token.scan text =
        (before ++ tokensOf part) ++ (parts.flatMap tokensOf ++ after) := by
      rw [whole, List.append_assoc]
    rw [List.flatMap_cons, List.flatMap_cons]
    exact (first before _ whole).append_span (ih later behind)

end Regions

section Starts

variable {text : Text} {before after : List Token}

private theorem proper_of_scan (whole : Token.scan text = before ++ after) :
    ∀ t ∈ after, t.Proper := by
  intro t member
  exact Token.proper_of_mem_scan (by rw [whole]; exact List.mem_append_right before member)

/-- An at sign with a name behind it starts a tag. -/
private theorem startsAt_tag {atSign : Token} {skipped named : List Token} {name argument : Text}
    (whole : Token.scan text = before ++ (atSign :: (skipped ++ named)))
    (isAtSign : atSign.isMarker '@') (isName : name <+: Token.join named)
    (only : ∀ t ∈ skipped, t.isBlank ∨ Text.endsWith (Token.join before) ['{'] ∧ t.isStar) :
    Event.StartsAt text (Token.join before).length (.tag atSign.line name argument) := by
  have sign : atSign.text = ['@'] := Token.text_of_isMarker isAtSign
  have line : atSign.line = Text.lineFeeds (text.take (Token.join before).length) := by
    have inLine : Text.lineFeeds ['@'] = 0 := rfl
    rw [Token.line_of_scan whole, take_length_join whole, sign, inLine, Nat.add_zero]
  obtain ⟨rest, split⟩ := isName
  have written : text.drop (Token.join before).length =
      '@' :: (Token.join skipped ++ name ++ rest) := by
    rw [drop_length_join whole, Token.join_cons, sign, Token.join_append, ← split]
    simp
  have behind : TokensAt text ((Token.join before).length + 1) skipped :=
    ⟨before ++ [atSign], named, by simp [whole], by simp [sign]⟩
  rw [line]
  refine .tag written behind ?_
  rwa [take_length_join whole]

private theorem InlineTag.Sound.sited {tag : InlineTag} (sound : tag.Sound)
    (whole : Token.scan text = before ++ (tag.tokens ++ after)) :
    Sited text (span before tag.tokens) [tag.event] := by
  obtain ⟨skipped, named, split, only, name⟩ := sound.body.exists_skipped
  have brace : tag.brace.text = ['{'] := Token.text_of_isMarker sound.brace
  have sign : tag.atSign.text = ['@'] := Token.text_of_isMarker sound.atSign
  have whole' : Token.scan text = (before ++ [tag.brace]) ++
      (tag.atSign :: (skipped ++ (named ++ tag.closing.toList ++ after))) := by
    rw [whole, InlineTag.tokens, split]
    simp
  have isName : Use.name.text tag.body <+: Token.join (named ++ tag.closing.toList ++ after) := by
    rw [List.append_assoc, Token.join_append]
    exact name.trans (List.prefix_append _ _)
  have inside : Text.endsWith (Token.join (before ++ [tag.brace])) ['{'] := by
    refine List.isSuffixOf_iff_suffix.mpr ⟨Token.join before, ?_⟩
    simp [brace]
  refine Sited.single rfl ?_
    (startsAt_tag whole' sound.atSign isName fun t member => (only t member).imp_right (⟨inside, ·⟩))
  have behind : span before tag.tokens = span before [tag.brace] ∪ span (before ++ [tag.brace])
      (tag.atSign :: (tag.body.map Prod.snd ++ tag.closing.toList)) :=
    span_cons
  rw [behind]
  exact Or.inr (start_mem_span (by simp [sign]))

private theorem SectionTag.Goes.inlineTag_sound {named : Bool} {argument : Text}
    {body : List SectionPart} (goes : SectionTag.Goes named argument body) {tag : InlineTag}
    (member : .inlineTag tag ∈ body) : tag.Sound := by
  induction goes with
  | done => simp at member
  | blank _ _ _ ih | name _ _ ih | argument _ _ ih => exact ih (by simpa using member)
  | inlineTag sound _ ih =>
    rcases List.mem_cons.mp member with same | later
    · rw [SectionPart.inlineTag.inj same]
      exact sound
    · exact ih later

private theorem SectionTag.Sound.sited {tag : SectionTag} (sound : tag.Sound)
    (whole : Token.scan text = before ++ (tag.tokens ++ after)) :
    Sited text (span before tag.tokens) tag.events := by
  obtain ⟨skipped, named, split, only, name⟩ := sound.body.exists_skipped
  have sign : tag.atSign.text = ['@'] := Token.text_of_isMarker sound.atSign
  have whole' : Token.scan text =
      before ++ (tag.atSign :: (skipped ++ (named ++ after))) := by
    rw [whole, SectionTag.tokens, split]
    simp
  have isName : Use.name.text (tag.body.filterMap SectionPart.own?) <+:
      Token.join (named ++ after) := by
    rw [Token.join_append]
    exact name.trans (List.prefix_append _ _)
  have own : Sited text (span before [tag.atSign]) [.tag tag.atSign.line
      (Use.name.text (tag.body.filterMap SectionPart.own?))
      (Use.argument.text (tag.body.filterMap SectionPart.own?))] :=
    Sited.single rfl (start_mem_span (by simp [sign]))
      (startsAt_tag whole' sound.atSign isName fun t member => Or.inl (only t member))
  have behind : Token.scan text = (before ++ [tag.atSign]) ++
      (tag.body.flatMap SectionPart.tokens ++ after) := by
    rw [whole, SectionTag.tokens]
    simp
  have inside : Sited text (span (before ++ [tag.atSign]) (tag.body.flatMap SectionPart.tokens))
      (tag.body.flatMap SectionPart.events) := by
    refine Sited.flatMap _ _ (fun part member before after whole => ?_) behind
    cases part with
    | token use t => exact Sited.none (by simp [SectionPart.events])
    | inlineTag inner => exact (sound.body.inlineTag_sound member).sited whole
  -- The event of the tag comes after those of the inline tags in it, but its position before theirs.
  have both : span before tag.tokens = span (before ++ [tag.atSign])
      (tag.body.flatMap SectionPart.tokens) ∪ span before [tag.atSign] := by
    rw [Set.union_comm]
    exact span_cons
  rw [both]
  exact inside.append own fun _ behind isOwn => not_mem_span_append isOwn behind

private theorem Piece.Sound.sited {piece : Piece} (sound : piece.Sound)
    (whole : Token.scan text = before ++ (piece.tokens ++ after)) :
    Sited text (span before piece.tokens) piece.events := by
  cases piece with
  | text tokens => exact Sited.none (by simp [Piece.events, Event.isStart])
  | inlineTag tag => exact InlineTag.Sound.sited sound whole
  | sectionTag tag => exact SectionTag.Sound.sited sound whole

private theorem Stretch.Sound.sited {stretch : Stretch} (sound : stretch.Sound)
    (whole : Token.scan text = before ++ (stretch.tokens ++ after)) :
    Sited text (span before stretch.tokens) stretch.events := by
  cases stretch with
  | text tokens => exact Sited.none (by simp [Stretch.events, Event.isStart])
  | comment opening pieces =>
    obtain ⟨opens, ⟨lead, rest, rfl⟩, sounds⟩ := sound
    simp only [Stretch.tokens, List.flatMap_cons, Piece.tokens, List.append_assoc] at whole
    have proper : opening.Proper := proper_of_scan whole opening (by simp)
    have starts : Text.startsWith (text.drop (Token.join before).length) "/**" := by
      obtain ⟨inside, start⟩ : ("/**" : Text) <+: opening.text :=
        List.isPrefixOf_iff_prefix.mp (Bool.and_eq_true_iff.mp opens).1
      rw [drop_length_join whole, List.cons_append, Token.join_cons, ← start]
      exact List.isPrefixOf_iff_prefix.mpr (by simp)
    have line : opening.line = Text.lineFeeds (text.take (Token.join before).length) := by
      rw [Token.line_of_scan whole, take_length_join whole, lineFeeds_of_opensComment proper opens,
        Nat.add_zero]
    have enter : Sited text (span before (opening :: lead)) [.enter opening.line] := by
      refine Sited.single rfl (start_mem_span proper.text_ne_nil) ?_
      rw [line]
      exact .enter starts
    have behind : Token.scan text =
        (before ++ (opening :: lead)) ++ (rest.flatMap Piece.tokens ++ after) := by
      rw [whole, List.append_assoc]
    have inside : Sited text (span (before ++ (opening :: lead)) (rest.flatMap Piece.tokens))
        (rest.flatMap Piece.events) :=
      Sited.flatMap _ _ (fun piece member _ _ =>
        (sounds piece (List.mem_cons_of_mem _ member)).sited) behind
    -- The text behind the start and the end of the comment have no position.
    refine (enter.append_span inside).congr ?_
    simp [Stretch.events, Piece.events, List.filter_cons, Event.isStart]

end Starts

/-- The starts of the comments and tags of a text have different positions in it. -/
theorem exists_sites (text : Text) :
    ∃ sites : List (Event × Nat), sites.map Prod.fst = (events text).filter Event.isStart ∧
      (sites.map Prod.snd).Nodup ∧ ∀ site ∈ sites, site.1.StartsAt text site.2 := by
  obtain ⟨stretches, tokensEq, eventsEq, sounds⟩ := exists_stretches text
  have whole : Token.scan text = [] ++ (stretches.flatMap Stretch.tokens ++ []) := by
    rw [tokensEq, List.nil_append, List.append_nil]
  have sited := Sited.flatMap Stretch.tokens Stretch.events
    (fun stretch member _ _ => (sounds stretch member).sited) whole
  rw [eventsEq] at sited
  obtain ⟨sites, starts, nodup, at_⟩ := sited
  exact ⟨sites, starts, nodup, fun site member => (at_ site member).2⟩

/-- The line of the start of a comment or a tag; other events stand on the first line. -/
def Event.line : Event → Nat
  | .enter line | .tag line _ _ => line
  | _ => 0

theorem Event.StartsAt.line_eq {text : Text} {position : Nat} {e : Event}
    (starts : e.StartsAt text position) : e.line = Text.lineFeeds (text.take position) := by
  cases starts <;> rfl

/-- No event counts more line feeds than its text has. -/
theorem line_le_lineFeeds {text : Text} {e : Event} (member : e ∈ events text) :
    e.line ≤ text.lineFeeds := by
  by_cases isStart : e.isStart
  · obtain ⟨sites, starts, -, at_⟩ := exists_sites text
    have counted : e ∈ (events text).filter Event.isStart := List.mem_filter.mpr ⟨member, isStart⟩
    rw [← starts] at counted
    obtain ⟨site, isSite, rfl⟩ := List.mem_map.mp counted
    rw [(at_ site isSite).line_eq]
    exact (List.take_sublist _ _).count_le _
  · have first : e.line = 0 := by
      cases e <;> simp_all [Event.isStart, Event.line]
    rw [first]
    exact Nat.zero_le _

end DocAudit.Comment
