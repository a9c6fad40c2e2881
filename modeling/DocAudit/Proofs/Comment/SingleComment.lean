import DocAudit.Proofs.Comment.Place
import DocAudit.Proofs.Comment.Scan

/-!
The events of a text that is one documentation comment: its start, then text and tags, then its
end.
-/

set_option autoImplicit false

namespace DocAudit.Comment

/-- The text is one documentation comment: a closing mark from the third character on is its end. -/
structure IsDocComment (text : Text) : Prop where
  starts : text.startsWith "/**"
  length : 5 ≤ text.length
  ends : text.endsWith "*/"
  closed_once : ∀ i < text.length, 2 ≤ i → Text.startsWith (text.drop i) "*/" →
    i + 2 = text.length

/-- Text inside a comment or a tag. -/
def Event.IsInner : Event → Prop
  | .commentText _ | .tag _ _ _ => True
  | _ => False

/-- Whether a reader stands inside a comment. -/
def Place.IsInside : Place → Prop
  | outside _ => False
  | _ => True

namespace Place

private theorem inner_inComment (pending : Text) : ∀ e ∈ Event.inComment pending, e.IsInner := by
  intro e member
  unfold Event.inComment at member
  split_ifs at member
  · simp at member
  · obtain rfl := List.mem_singleton.mp member
    trivial

/-- Up to its last event a comment has only inner events. -/
private def Ends (events : List Event) : Prop :=
  ∃ body, events = body ++ [.exit] ∧ ∀ e ∈ body, e.IsInner

private theorem ends_close (pending : Text) : Ends (Event.close pending) :=
  ⟨Event.inComment pending, rfl, inner_inComment pending⟩

private theorem Ends.cons {e : Event} {events : List Event} (inner : e.IsInner)
    (ends : Ends events) : Ends (e :: events) := by
  obtain ⟨body, rfl, inners⟩ := ends
  exact ⟨e :: body, rfl, List.forall_mem_cons.mpr ⟨inner, inners⟩⟩

private theorem Ends.append {before events : List Event} (inners : ∀ e ∈ before, e.IsInner)
    (ends : Ends events) : Ends (before ++ events) := by
  induction before with
  | nil => exact ends
  | cons e before ih =>
    obtain ⟨inner, inners⟩ := List.forall_mem_cons.mp inners
    exact Ends.cons inner (ih inners)

private theorem ends_finish {place : Place} (inside : place.IsInside) : Ends place.finish := by
  cases place with
  | outside pending => exact inside.elim
  | comment pending => exact ends_close pending
  | sectionTag tag => exact Ends.cons trivial (ends_close [])
  | inlineTag tag depth around =>
    cases around with
    | none => exact Ends.cons trivial (ends_close [])
    | some around => exact Ends.cons trivial (Ends.cons trivial (ends_close []))

/-- A token read inside a comment gives inner events and leaves the reader inside, or it ends the
comment and leaves nothing to report. -/
private def StaysOrEnds (t : Token) (result : List Event × Place) : Prop :=
  ((∀ e ∈ result.1, e.IsInner) ∧ result.2.IsInside) ∨
    t.closesComment ∧ Ends result.1 ∧ result.2 = outside []

private theorem staysOrEnds_stepComment (pending : Text) (t : Token) :
    StaysOrEnds t (stepComment pending t) := by
  unfold stepComment
  split_ifs with closes atSign
  · exact Or.inr ⟨closes, ends_close _, rfl⟩
  · exact Or.inl ⟨inner_inComment pending, trivial⟩
  · exact Or.inl ⟨by simp, trivial⟩

private theorem staysOrEnds_stepSection (tag : OpenTag) (t : Token) :
    StaysOrEnds t (stepSection tag t) := by
  unfold stepSection
  split_ifs with lacks lines blank closes
  · exact Or.inl ⟨by simp, trivial⟩
  · exact Or.inl ⟨by simp [Event.IsInner, OpenTag.event], trivial⟩
  · exact Or.inl ⟨by simp [Event.IsInner, OpenTag.event], trivial⟩
  · exact Or.inr ⟨closes, Ends.cons trivial (ends_close _), rfl⟩
  · exact Or.inl ⟨by simp, trivial⟩

private theorem StaysOrEnds.cons {t : Token} {e : Event} {result : List Event × Place}
    (inner : e.IsInner) (h : StaysOrEnds t result) :
    StaysOrEnds t (e :: result.1, result.2) := by
  rcases h with ⟨inners, inside⟩ | ⟨closes, ends, done⟩
  · exact Or.inl ⟨List.forall_mem_cons.mpr ⟨inner, inners⟩, inside⟩
  · exact Or.inr ⟨closes, Ends.cons inner ends, done⟩

private theorem staysOrEnds_stepInline (tag : OpenTag) (depth : Nat) (around : Option OpenTag)
    (t : Token) : StaysOrEnds t (stepInline tag depth around t) := by
  unfold stepInline
  simp only
  split_ifs with star closes lacks opening closing
  · exact Or.inl ⟨by simp, trivial⟩
  · cases around with
    | none => exact StaysOrEnds.cons trivial (staysOrEnds_stepComment [] t)
    | some s => exact StaysOrEnds.cons trivial (staysOrEnds_stepSection s t)
  · exact Or.inl ⟨by simp, trivial⟩
  · exact Or.inl ⟨by simp, trivial⟩
  · cases depth with
    | zero =>
      refine Or.inl ⟨by simp [Event.IsInner, OpenTag.event], ?_⟩
      cases around <;> trivial
    | succ depth => exact Or.inl ⟨by simp, trivial⟩
  · exact Or.inl ⟨by simp, trivial⟩

private theorem staysOrEnds_step {place : Place} (inside : place.IsInside) (t : Token) :
    StaysOrEnds t (place.step t) := by
  cases place with
  | outside pending => exact inside.elim
  | comment pending => exact staysOrEnds_stepComment pending t
  | sectionTag tag => exact staysOrEnds_stepSection tag t
  | inlineTag tag depth around => exact staysOrEnds_stepInline tag depth around t

private theorem inner_openInline {place next : Place} {t u : Token} {now : List Event}
    (opened : place.openInline? t u = some (now, next)) :
    (∀ e ∈ now, e.IsInner) ∧ next.IsInside := by
  obtain ⟨-, -, ⟨pending, rfl, rfl, rfl⟩ | ⟨tag, rfl, -, rfl, rfl⟩⟩ := cases_of_openInline? opened
  · exact ⟨inner_inComment pending, trivial⟩
  · exact ⟨by simp, trivial⟩

/-- When only the last token may end a comment, the comment ends with the text. -/
theorem exists_inner_events (place : Place) {tokens : List Token} (inside : place.IsInside)
    (open_ : ∀ t ∈ tokens.dropLast, ¬ t.closesComment) :
    ∃ body, place.events tokens = body ++ [.exit] ∧ ∀ e ∈ body, e.IsInner := by
  induction place, tokens using Place.events.induct with
  | case1 place =>
    rw [events_nil]
    exact ends_finish inside
  | case2 place t now next step =>
    rw [events_cons (by simp), events_nil]
    rcases staysOrEnds_step inside t with ⟨inners, inside'⟩ | ⟨-, ends, done⟩
    · exact Ends.append inners (ends_finish inside')
    · simp only [done, finish, Event.plain, List.isEmpty_nil, if_true, List.append_nil]
      exact ends
  | case3 place t u rest now next opened ih =>
    rw [events_of_open opened]
    obtain ⟨inners, inside'⟩ := inner_openInline opened
    refine Ends.append inners (ih inside' fun v member => open_ v ?_)
    cases rest with
    | nil => simp at member
    | cons w rest =>
      rw [List.dropLast_cons_cons, List.dropLast_cons_cons]
      exact List.mem_cons_of_mem t (List.mem_cons_of_mem u member)
  | case4 place t u rest notOpened now next step ih =>
    rw [events_cons (by simpa using notOpened)]
    rw [List.dropLast_cons_cons] at open_
    obtain ⟨open_, opens⟩ := List.forall_mem_cons.mp open_
    rcases staysOrEnds_step inside t with ⟨inners, inside'⟩ | ⟨closes, -, -⟩
    · rw [step] at inners inside' ⊢
      exact Ends.append inners (ih inside' opens)
    · exact absurd closes open_

/-- Without at signs everything up to the end is text of the comment. -/
theorem events_comment_of_untagged (pending : Text) {tokens : List Token}
    (untagged : ∀ t ∈ tokens, ¬ t.isMarker '@')
    (open_ : ∀ t ∈ tokens.dropLast, ¬ t.closesComment) :
    (comment pending).events tokens = Event.close (pending ++ Token.join tokens) := by
  induction tokens generalizing pending with
  | nil => simp [finish]
  | cons t rest ih =>
    obtain ⟨noTag, untagged⟩ := List.forall_mem_cons.mp untagged
    have plain : ∀ u ∈ rest.head?, (comment pending).openInline? t u = none := by
      intro u next
      have noSign := untagged u (List.mem_of_mem_head? next)
      simp [openInline?, noSign]
    rw [events_cons plain, step, stepComment]
    by_cases closes : t.closesComment
    · have last : rest = [] := by
        cases rest with
        | nil => rfl
        | cons u rest => exact absurd closes (open_ t List.mem_cons_self)
      simp [closes, last, finish, Event.plain]
    · have open' : ∀ u ∈ rest.dropLast, ¬ u.closesComment := by
        cases rest with
        | nil => simp
        | cons u rest => exact fun v member => open_ v (List.mem_cons_of_mem t member)
      simp [closes, noTag, ih (pending ++ t.text) untagged open']

end Place

namespace IsDocComment

variable {text : Text}

private theorem closing_last (doc : IsDocComment text) (before : List Token) {after : List Token}
    {t : Token}
    (tokens : Token.scan text = before ++ t :: after) (closes : t.closesComment)
    (late : 4 ≤ (Token.join before).length + t.text.length) : after = [] := by
  obtain ⟨start, startEq⟩ : ("*/" : Text) <:+ t.text := List.isSuffixOf_iff_suffix.mp closes
  have written : text = (Token.join before ++ start) ++ ("*/" : Text) ++ Token.join after := by
    rw [← Token.join_scan text, tokens, Token.join_append, Token.join_cons, ← startEq]
    simp
  have lengths := congrArg List.length written
  have startLength := congrArg List.length startEq
  simp only [List.length_append] at lengths startLength
  have mark : ("*/" : Text).length = 2 := rfl
  have found : Text.startsWith (text.drop (Token.join before ++ start).length) "*/" := by
    rw [written, List.append_assoc, List.drop_left]
    exact List.isPrefixOf_iff_prefix.mpr (List.prefix_append _ _)
  have whole := doc.closed_once _ (by simp only [List.length_append]; omega)
    (by simp only [List.length_append]; omega) found
  simp only [List.length_append] at whole
  have nothing : Token.join after = [] := List.length_eq_zero_iff.mp (by omega)
  cases after with
  | nil => rfl
  | cons u rest =>
    have proper : u.Proper := Token.proper_of_mem_scan (by rw [tokens]; simp)
    exact absurd (List.append_eq_nil_iff.mp nothing).1 proper.text_ne_nil

private theorem scan_starts_with_word (body : Text) :
    ∃ t rest inside, Token.scan (("/**" : Text) ++ body) = t :: rest ∧ t.kind = .word ∧
      t.text = '/' :: '*' :: '*' :: inside ∧ t.line = t.text.lineFeeds := by
  change ∃ t rest inside, Token.scanFrom 0 ('/' :: '*' :: '*' :: body) = t :: rest ∧ _
  have kind : Token.kindOf '/' = .word := by decide
  refine ⟨_, _, body.takeWhile fun c => !(Text.isBlank c || Token.isMarkerChar c),
    Token.scanFrom_cons _ _ _, kind, ?_, Nat.zero_add _⟩
  simp only [kind, Token.extent, Token.take_length_takeWhile]
  rw [List.takeWhile_cons_of_pos (by decide), List.takeWhile_cons_of_pos (by decide)]

private theorem scan_eq (doc : IsDocComment text) :
    ∃ t rest, Token.scan text = t :: rest ∧ t.opensComment ∧ t.line = 0 ∧
      (t.closesComment → rest = [] ∧ t.isWholeComment) ∧
      ∀ u ∈ rest.dropLast, ¬ u.closesComment := by
  obtain ⟨body, rfl⟩ : ("/**" : Text) <+: text := List.isPrefixOf_iff_prefix.mp doc.starts
  obtain ⟨t, rest, inside, tokens, word, start, line⟩ := scan_starts_with_word body
  have proper : t.Proper := Token.proper_of_mem_scan (by rw [tokens]; exact List.mem_cons_self)
  have closing : t.closesComment → rest = [] ∧ 4 < t.text.length := by
    intro closes
    have longer : 4 ≤ t.text.length := by
      by_contra short
      have nothing : inside = [] := List.eq_nil_of_length_eq_zero (by
        simp only [start, List.length_cons] at short
        omega)
      rw [Token.closesComment, start, nothing] at closes
      exact absurd closes (by decide)
    have last : rest = [] := doc.closing_last [] tokens closes (by simpa using longer)
    have all : Token.join [t] = ("/**" : Text) ++ body := by
      rw [← Token.join_scan (("/**" : Text) ++ body), tokens, last]
    have enough := doc.length
    rw [← all] at enough
    have long : 5 ≤ t.text.length := by simpa using enough
    exact ⟨last, long⟩
  refine ⟨t, rest, tokens, ?_, ?_, ?_, ?_⟩
  · have starts : t.text.startsWith "/**" :=
      List.isPrefixOf_iff_prefix.mpr ⟨inside, start.symm⟩
    have notEmpty : t.text ≠ ("/**/" : Text) := by
      intro empty
      have closes : t.closesComment := by
        rw [Token.closesComment, empty]
        decide
      have long := (closing closes).2
      rw [empty] at long
      exact absurd long (by decide)
    simp only [Token.opensComment, starts, Bool.true_and, bne_iff_ne]
    exact notEmpty
  · rw [line, Text.lineFeeds, List.count_eq_zero]
    intro member
    exact absurd (proper.word word _ member) (by decide)
  · intro closes
    obtain ⟨last, long⟩ := closing closes
    exact ⟨last, by simp [Token.isWholeComment, closes, long]⟩
  · intro u member closes
    obtain ⟨before, after, split⟩ := List.append_of_mem member
    have ne_nil : rest ≠ [] := by
      rintro rfl
      simp at member
    obtain ⟨last, restEq⟩ : ∃ last, rest = rest.dropLast ++ [last] :=
      ⟨_, (List.dropLast_append_getLast ne_nil).symm⟩
    rw [split] at restEq
    have whole : Token.scan (("/**" : Text) ++ body) =
        (t :: before) ++ u :: (after ++ [last]) := by
      rw [tokens, restEq]
      simp
    have properU : u.Proper := Token.proper_of_mem_scan (by rw [whole]; simp)
    have long : 1 ≤ u.text.length := List.length_pos_iff.mpr properU.text_ne_nil
    have nothing := doc.closing_last (t :: before) whole closes (by
      simp only [Token.join_cons, start, List.length_append, List.length_cons]
      omega)
    simp at nothing

/-- A single comment has one start, on its first line, and one end. -/
theorem events_eq (doc : IsDocComment text) :
    ∃ body, events text = .enter 0 :: (body ++ [.exit]) ∧ ∀ e ∈ body, e.IsInner := by
  obtain ⟨t, rest, tokens, opens, line, closing, open_⟩ := doc.scan_eq
  have plain : ∀ u ∈ rest.head?, (Place.outside []).openInline? t u = none := by
    simp [Place.openInline?]
  rw [events, tokens, Place.events_cons plain, Place.step, Place.stepOutside, if_pos opens]
  by_cases whole : t.isWholeComment
  · obtain ⟨rfl, -⟩ := closing (by simp_all [Token.isWholeComment])
    refine ⟨[.commentText t.text], ?_, by simp [Event.IsInner]⟩
    simp [whole, line, Event.plain, Place.finish]
  · obtain ⟨body, events, inners⟩ :=
      Place.exists_inner_events (.comment t.text) trivial open_
    refine ⟨body, ?_, inners⟩
    simp [whole, line, Event.plain, events]

/-- A comment without at signs is a single text. -/
theorem events_of_untagged (doc : IsDocComment text)
    (untagged : ∀ t ∈ Token.scan text, ¬ t.isMarker '@') :
    events text = [.enter 0, .commentText text, .exit] := by
  obtain ⟨t, rest, tokens, opens, line, closing, open_⟩ := doc.scan_eq
  have whole : t.text ++ Token.join rest = text := by
    rw [← Token.join_cons, ← tokens, Token.join_scan]
  have ne_nil : text ≠ [] := List.ne_nil_of_length_pos (Nat.lt_of_lt_of_le (by omega) doc.length)
  have plain : ∀ u ∈ rest.head?, (Place.outside []).openInline? t u = none := by
    simp [Place.openInline?]
  rw [events, tokens, Place.events_cons plain, Place.step, Place.stepOutside, if_pos opens]
  by_cases alone : t.isWholeComment
  · obtain ⟨rfl, -⟩ := closing (Bool.and_eq_true_iff.mp alone).2
    rw [Token.join_nil, List.append_nil] at whole
    simp [alone, line, whole, Event.plain, Place.finish]
  · rw [tokens] at untagged
    have inside := Place.events_comment_of_untagged t.text
      (fun u member => untagged u (List.mem_cons_of_mem t member)) open_
    rw [whole] at inside
    simp [alone, line, inside, Event.plain, Event.close, Event.inComment, ne_nil]

end IsDocComment

end DocAudit.Comment
