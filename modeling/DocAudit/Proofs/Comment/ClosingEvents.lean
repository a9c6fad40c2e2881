import DocAudit.Proofs.Comment.Closing
import Mathlib.Tactic.SplitIfs

/-!
What white space before the closing mark of a comment does to its events. It is not seen where the
mark is a token by itself, nor where the mark ends the comment's own text; inside a tag a word
before the mark is lost to the tag without it.
-/

set_option autoImplicit false

namespace DocAudit.Comment

private theorem isBlank_of_mem_space {c : Char} (member : c ∈ (" " : Text)) : Text.isBlank c := by
  obtain rfl := List.mem_singleton.mp member
  rfl

namespace Token

private theorem closesComment_append (kind : TokenKind) (text : Text) (line : Nat) :
    closesComment ⟨kind, text ++ "*/", line⟩ := by
  exact List.isSuffixOf_iff_suffix.mpr (List.suffix_append text _)

variable {gap : Text} {line : Nat}

private theorem opensComment_of_blank (blank : ∀ c ∈ gap, Text.isBlank c) :
    opensComment ⟨.blank, gap, line⟩ = false := by
  have other : Text.startsWith gap "/**" = false := by
    refine Bool.eq_false_iff.mpr fun starts => ?_
    have slash : '/' ∈ gap := (List.isPrefixOf_iff_prefix.mp starts).subset List.mem_cons_self
    exact absurd (blank '/' slash) (by decide)
  rw [opensComment, other, Bool.false_and]

private theorem closesComment_of_blank (blank : ∀ c ∈ gap, Text.isBlank c) :
    closesComment ⟨.blank, gap, line⟩ = false := by
  refine Bool.eq_false_iff.mpr fun closes => ?_
  have slash : '/' ∈ gap :=
    (List.isSuffixOf_iff_suffix.mp closes).subset (by simp)
  exact absurd (blank '/' slash) (by decide)

private theorem isStar_of_blank (blank : ∀ c ∈ gap, Text.isBlank c) :
    isStar ⟨.blank, gap, line⟩ = false := by
  refine beq_false_of_ne ?_
  rintro rfl
  exact absurd (blank '*' List.mem_cons_self) (by decide)

end Token

/-- The tag with more white space at the end of its argument. -/
def OpenTag.padded (tag : OpenTag) (gap : Text) : OpenTag :=
  { tag with argument := tag.argument ++ gap }

/-- The events differ in plain text, in white space among the text of a comment, and at the end of
an argument. -/
inductive Event.Alike : Event → Event → Prop where
  | text (t t' : Text) : Alike (.text t) (.text t')
  | enter (line : Nat) : Alike (.enter line) (.enter line)
  | commentText {t t' : Text} (same : Text.SameVisible t t') :
    Alike (.commentText t) (.commentText t')
  | tag (line : Nat) (name argument : Text) {gap : Text} (blank : ∀ c ∈ gap, Text.isBlank c) :
    Alike (.tag line name argument) (.tag line name (argument ++ gap))
  | exit : Alike .exit .exit

theorem Event.Alike.self (e : Event) : Alike e e := by
  cases e with
  | text t => exact .text t t
  | enter line => exact .enter line
  | commentText t => exact .commentText rfl
  | tag line name argument =>
    have padded := Alike.tag line name argument (List.forall_mem_nil fun c => Text.isBlank c = true)
    rwa [List.append_nil] at padded
  | exit => exact .exit

theorem Event.alike_self (events : List Event) : List.Forall₂ Alike events events :=
  List.forall₂_same.mpr fun e _ => .self e

/-- The places differ as alike events do. -/
inductive Place.Alike : Place → Place → Prop where
  | outside (pending pending' : Text) : Alike (.outside pending) (.outside pending')
  | comment {pending pending' : Text} (same : Text.SameVisible pending pending') :
    Alike (.comment pending) (.comment pending')
  | sectionTag (tag : OpenTag) {gap : Text} (blank : ∀ c ∈ gap, Text.isBlank c) :
    Alike (.sectionTag tag) (.sectionTag (tag.padded gap))
  | inlineTag (tag : OpenTag) (depth : Nat) (around : Option OpenTag) {gap : Text}
    (blank : ∀ c ∈ gap, Text.isBlank c) :
    Alike (.inlineTag tag depth around) (.inlineTag (tag.padded gap) depth around)

/-- The events end with text of the comment that a space and the mark belong to. -/
def EndsInText (events : List Event) : Prop :=
  ∃ front t, events = front ++ [.commentText (t ++ " */"), .exit]

namespace Place

/-- Tokens that do not go on with an at sign are read from one place on, whatever they are. -/
theorem exists_run (place : Place) (front : List Token) :
    ∃ (now : List Event) (next : Place), ∀ rest : List Token,
      (∀ u ∈ rest.head?, u.isMarker '@' = false) →
        place.events (front ++ rest) = now ++ next.events rest := by
  induction place, front using Place.events.induct with
  | case1 place => exact ⟨[], place, fun rest _ => rfl⟩
  | case2 place t =>
    refine ⟨(place.step t).1, (place.step t).2, fun rest other => ?_⟩
    refine events_cons fun u next => ?_
    simp [openInline?, other u next]
  | case3 place t u front now next opened ih =>
    obtain ⟨later, place', run⟩ := ih
    refine ⟨now ++ later, place', fun rest other => ?_⟩
    rw [List.cons_append, List.cons_append, events_of_open opened, run rest other,
      List.append_assoc]
  | case4 place t u front plain now next stepped ih =>
    obtain ⟨later, place', run⟩ := ih
    refine ⟨now ++ later, place', fun rest other => ?_⟩
    have alone : ∀ v ∈ (u :: front ++ rest).head?, place.openInline? t v = none := by
      rintro v ⟨⟩
      exact plain
    rw [List.cons_append, events_cons alone, stepped, run rest other, List.append_assoc]

open Token (mark space)

variable {place place' : Place} {line : Nat}

/-- A token that is no marker is read by itself. -/
private theorem events_cons_of_not_marker {t : Token} (notMarker : t.kind ≠ .marker)
    (rest : List Token) :
    place.events (t :: rest) = (place.step t).1 ++ (place.step t).2.events rest := by
  refine events_cons fun u _ => ?_
  simp [openInline?, Token.isMarker, notMarker]

/-- The token ends a comment and is neither white space nor a marker. -/
private structure Closes (t : Token) : Prop where
  notMarker : t.kind ≠ .marker
  visible : t.isBlank = false
  closes : t.closesComment

private theorem closes_mark : Closes (mark line) where
  notMarker := by simp [mark]
  visible := rfl
  closes := Token.closesComment_append .word [] line

private theorem Closes.events {t : Token} (closing : Closes t) (place : Place) :
    place.events [t] = (place.step t).1 ++ (place.step t).2.finish := by
  rw [events_cons_of_not_marker closing.notMarker, events_nil]

private theorem Closes.text_ne_nil {t : Token} (closing : Closes t) : t.text ≠ [] := by
  intro nothing
  have suffix := List.isSuffixOf_iff_suffix.mp closing.closes
  rw [nothing] at suffix
  exact absurd (List.suffix_nil.mp suffix) (by decide)

private theorem Closes.events_outside {t : Token} (closing : Closes t)
    (closed : t.opensComment = false) (pending : Text) :
    (outside pending).events [t] = [.text (pending ++ t.text)] := by
  rw [closing.events]
  simp [step, stepOutside, closed, finish, Event.plain, closing.text_ne_nil]

private theorem Closes.events_comment {t : Token} (closing : Closes t) (pending : Text) :
    (comment pending).events [t] = [.commentText (pending ++ t.text), .exit] := by
  rw [closing.events, step, stepComment, if_pos closing.closes]
  simp [finish, Event.close, Event.inComment, Event.plain, closing.text_ne_nil]

private theorem Closes.events_section {t : Token} (closing : Closes t) (tag : OpenTag) :
    (sectionTag tag).events [t] =
      if tag.name.isNone then [.tag tag.line t.text tag.argument, .exit]
      else if t.spansLines then [.tag tag.line (tag.name.getD []) (tag.argument ++ t.text), .exit]
      else [tag.event, .commentText t.text, .exit] := by
  rw [closing.events, step]
  by_cases lacks : tag.name.isNone
  · have isName : tag.lacks t := by simp [OpenTag.lacks, lacks, closing.visible]
    rw [stepSection, if_pos isName, if_pos lacks]
    rfl
  · have noName : ¬ tag.lacks t := by simp [OpenTag.lacks, lacks]
    have solid : ¬ t.isBlank := by simp [closing.visible]
    rw [stepSection, if_neg noName, if_neg lacks, if_neg solid, if_pos closing.closes]
    split_ifs
    · rfl
    · simp [finish, Event.close, Event.inComment, Event.plain, closing.text_ne_nil]

private theorem Closes.events_inline {t : Token} (closing : Closes t) (tag : OpenTag) (depth : Nat)
    (around : Option OpenTag) :
    (inlineTag tag depth around).events [t] =
      tag.event :: ((around.map sectionTag).getD (comment [])).events [t] := by
  have notStar : t.isStar = false := by
    refine beq_false_of_ne fun star => ?_
    have suffix := List.isSuffixOf_iff_suffix.mp closing.closes
    rw [star] at suffix
    exact absurd suffix.length_le (by decide)
  rw [closing.events, closing.events]
  cases around with
  | none => simp [step, stepInline, notStar, closing.closes]
  | some around => simp [step, stepInline, notStar, closing.closes]

/-- At the mark alike places are left with alike events. -/
private theorem Alike.events_mark (alike : place.Alike place') :
    List.Forall₂ Event.Alike (place.events [mark line]) (place'.events [mark line]) := by
  have padded : ∀ (tag : OpenTag) {gap : Text}, (∀ c ∈ gap, Text.isBlank c) →
      Event.Alike tag.event (tag.padded gap).event :=
    fun tag _ blank => .tag tag.line _ tag.argument blank
  cases alike with
  | outside pending pending' =>
    rw [closes_mark.events_outside rfl, closes_mark.events_outside rfl]
    exact .cons (.text _ _) .nil
  | comment same =>
    rw [closes_mark.events_comment, closes_mark.events_comment]
    refine .cons (.commentText ?_) (.cons .exit .nil)
    rw [Text.SameVisible, List.filter_append, List.filter_append, same]
  | sectionTag tag blank =>
    have inLine : ¬ (mark line).spansLines := Bool.false_ne_true
    rw [closes_mark.events_section, closes_mark.events_section, if_neg inLine, if_neg inLine,
      OpenTag.padded]
    split_ifs with lacks
    · exact .cons (.tag _ _ _ blank) (.cons .exit .nil)
    · exact .cons (padded tag blank) (.cons (.self _) (.cons .exit .nil))
  | inlineTag tag depth around blank =>
    rw [closes_mark.events_inline, closes_mark.events_inline]
    exact .cons (padded tag blank) (Event.alike_self _)

/-- White space leaves a place open, but for the line of a section tag. -/
private theorem step_blank (place : Place) {gap : Text} (blank : ∀ c ∈ gap, Text.isBlank c) :
    place.step ⟨.blank, gap, line⟩ =
      match place with
      | outside pending => ([], outside (pending ++ gap))
      | comment pending => ([], comment (pending ++ gap))
      | sectionTag tag =>
        if gap.contains '\n' then ([tag.event], comment gap)
        else ([], sectionTag (tag.appendTrimmed ⟨.blank, gap, line⟩))
      | inlineTag tag depth around =>
        ([], inlineTag (tag.appendTrimmed ⟨.blank, gap, line⟩) depth around) := by
  cases place with
  | outside pending => simp [step, stepOutside, Token.opensComment_of_blank blank]
  | comment pending =>
    simp [step, stepComment, Token.closesComment_of_blank blank, Token.isMarker]
  | sectionTag tag =>
    simp [step, stepSection, Token.closesComment_of_blank blank, OpenTag.lacks, Token.isBlank,
      Token.spansLines]
  | inlineTag tag depth around =>
    simp [step, stepInline, Token.closesComment_of_blank blank, Token.isStar_of_blank blank,
      OpenTag.lacks, Token.isBlank, Token.isMarker]

private theorem exists_padded (tag : OpenTag) (gap : Text) (line : Nat) :
    ∃ more : Text, (∀ c ∈ more, Text.isBlank c) ∧
      tag.appendTrimmed ⟨.blank, gap ++ " ", line⟩ =
        (tag.appendTrimmed ⟨.blank, gap, line⟩).padded more := by
  by_cases nothing : tag.argument.isEmpty
  · refine ⟨[], by simp, ?_⟩
    simp [OpenTag.appendTrimmed, nothing, Token.isBlank, OpenTag.padded]
  · refine ⟨" ", fun c => isBlank_of_mem_space, ?_⟩
    simp [OpenTag.appendTrimmed, nothing, OpenTag.append, OpenTag.padded]

/-- White space is read alike with one space more at its end. -/
private theorem step_gap (place : Place) (line : Nat) {gap : Text}
    (blank : ∀ c ∈ gap, Text.isBlank c) :
    (place.step ⟨.blank, gap ++ " ", line⟩).1 = (place.step ⟨.blank, gap, line⟩).1 ∧
      (place.step ⟨.blank, gap, line⟩).2.Alike (place.step ⟨.blank, gap ++ " ", line⟩).2 := by
  have blank' : ∀ c ∈ gap ++ " ".toList, Text.isBlank c := fun c member =>
    (List.mem_append.mp member).elim (blank c) isBlank_of_mem_space
  have sameLine : (gap ++ " ".toList).contains '\n' = gap.contains '\n' := by simp
  have visible : ∀ pending : Text,
      Text.SameVisible (pending ++ gap) (pending ++ (gap ++ " ".toList)) := by
    intro pending
    have space := Text.sameVisible_gap (fun c => isBlank_of_mem_space) (pending ++ gap) []
    rwa [List.append_nil, List.append_nil, List.append_assoc] at space
  rw [step_blank place blank, step_blank place blank']
  cases place with
  | outside pending => exact ⟨rfl, .outside _ _⟩
  | comment pending => exact ⟨rfl, .comment (visible pending)⟩
  | sectionTag tag =>
    obtain ⟨more, isBlank, padded⟩ := exists_padded tag gap line
    simp only [sameLine, padded]
    split_ifs
    · exact ⟨rfl, .comment (visible [])⟩
    · exact ⟨rfl, .sectionTag _ isBlank⟩
  | inlineTag tag depth around =>
    obtain ⟨more, isBlank, padded⟩ := exists_padded tag gap line
    simp only [padded]
    exact ⟨trivial, .inlineTag _ depth around isBlank⟩

/-- Before the mark one space more is read alike. -/
private theorem events_gap_mark (place : Place) (line : Nat) {gap : Text}
    (blank : ∀ c ∈ gap, Text.isBlank c) :
    List.Forall₂ Event.Alike (place.events [⟨.blank, gap, line⟩, mark line])
      (place.events [⟨.blank, gap ++ " ", line⟩, mark line]) := by
  obtain ⟨now, next⟩ := step_gap place line blank
  have apart : ∀ gap : Text, (⟨.blank, gap, line⟩ : Token).kind ≠ .marker := by simp
  rw [events_cons_of_not_marker (apart gap), events_cons_of_not_marker (apart _), now]
  exact List.rel_append (Event.alike_self _) next.events_mark

private theorem step_nothing (place : Place) : place.step ⟨.blank, [], line⟩ = ([], place) := by
  rw [step_blank place (by simp)]
  cases place with
  | outside pending => simp
  | comment pending => simp
  | sectionTag tag => simp [OpenTag.appendTrimmed, OpenTag.append]
  | inlineTag tag depth around => simp [OpenTag.appendTrimmed, OpenTag.append]

/-- A space before the mark is read by itself. -/
private theorem events_space (place : Place) (line : Nat) (rest : List Token) :
    place.events (space line :: rest) =
      (place.step ⟨.blank, " ", line⟩).1 ++ (place.step ⟨.blank, " ", line⟩).2.events rest :=
  events_cons_of_not_marker (by simp [space]) rest

/-- A mark that is a token by itself is read alike behind a space. -/
private theorem events_space_mark (place : Place) (line : Nat) :
    List.Forall₂ Event.Alike (place.events [mark line]) (place.events [space line, mark line]) := by
  have nothing : place.events [⟨.blank, [], line⟩, mark line] = place.events [mark line] := by
    rw [events_cons_of_not_marker (by simp), step_nothing]
    rfl
  rw [← nothing]
  exact events_gap_mark place line (by simp)

section EndsInText

variable {now : List Event}

private theorem last_of_endsInText {x y : Event} (ends : EndsInText (now ++ [x, y])) :
    (∃ t : Text, x = .commentText (t ++ " */")) ∧ y = .exit := by
  obtain ⟨front, t, same⟩ := ends
  obtain ⟨-, last⟩ := List.append_inj' same rfl
  obtain ⟨rfl, rest⟩ := List.cons.inj last
  obtain ⟨rfl, -⟩ := List.cons.inj rest
  exact ⟨⟨t, rfl⟩, rfl⟩

private theorem not_endsInText_text (t : Text) : ¬ EndsInText (now ++ [.text t]) := by
  rintro ⟨front, u, same⟩
  have last := congrArg List.getLast? same
  simp at last

private theorem not_endsInText_mark : ¬ EndsInText (now ++ [.commentText "*/", .exit]) := by
  intro ends
  obtain ⟨⟨t, same⟩, -⟩ := last_of_endsInText ends
  have size := congrArg List.length (Event.commentText.inj same)
  simp at size

private theorem not_endsInText_tag (line : Nat) (name argument : Text) :
    ¬ EndsInText (now ++ [.tag line name argument, .exit]) := by
  intro ends
  obtain ⟨⟨t, same⟩, -⟩ := last_of_endsInText ends
  simp at same

private theorem not_endsInText_section (tag : OpenTag) :
    ¬ EndsInText (now ++ (sectionTag tag).events [mark line]) := by
  have inLine : ¬ (mark line).spansLines := Bool.false_ne_true
  rw [closes_mark.events_section, if_neg inLine]
  split_ifs
  · exact not_endsInText_tag _ _ _
  · rw [← List.singleton_append, ← List.append_assoc]
    exact not_endsInText_mark

private theorem not_endsInText_inline (tag : OpenTag) (depth : Nat) (around : Option OpenTag) :
    ¬ EndsInText (now ++ (inlineTag tag depth around).events [mark line]) := by
  rw [closes_mark.events_inline, ← List.singleton_append, ← List.append_assoc]
  cases around with
  | none =>
    rw [Option.map_none, Option.getD_none, closes_mark.events_comment]
    exact not_endsInText_mark
  | some around => exact not_endsInText_section around

/-- A space before the mark is read as text only where a word before it would be. -/
private theorem comment_of_endsInText (place : Place)
    (ends : EndsInText (now ++ place.events [space line, mark line])) :
    ∃ pending, place = comment pending := by
  rw [events_space, step_blank place fun c => isBlank_of_mem_space, ← List.append_assoc] at ends
  cases place with
  | outside pending =>
    rw [closes_mark.events_outside rfl] at ends
    exact absurd ends (not_endsInText_text _)
  | comment pending => exact ⟨pending, rfl⟩
  | sectionTag tag => exact absurd ends (not_endsInText_section _)
  | inlineTag tag depth around => exact absurd ends (not_endsInText_inline _ _ _)

/-- Where a word leads into the text of a comment: at its start, and within it. -/
private theorem step_word {word : Text} {pending : Text} (place : Place)
    (plain : ∀ c ∈ word, Text.isBlank c = false)
    (inText : (place.step ⟨.word, word, line⟩).2 = comment pending) :
    (∃ before, place = outside before ∧ Token.opensComment ⟨.word, word, line⟩ ∧
      ¬ Token.isWholeComment ⟨.word, word, line⟩) ∨ ∃ before, place = comment before := by
  have oneLine : Token.spansLines ⟨.word, word, line⟩ = false := by
    refine Bool.eq_false_iff.mpr fun spans => ?_
    exact absurd (plain '\n' (List.contains_iff_mem.mp spans)) (by decide)
  have notInSection : ∀ tag pending, (stepSection tag ⟨.word, word, line⟩).2 ≠ comment pending := by
    intro tag pending
    rw [stepSection, oneLine, if_neg Bool.false_ne_true]
    split_ifs <;> simp
  cases place with
  | outside before =>
    refine Or.inl ⟨before, rfl, ?_⟩
    rw [step, stepOutside] at inText
    split_ifs at inText with opens whole
    exact ⟨opens, whole⟩
  | comment before => exact Or.inr ⟨before, rfl⟩
  | sectionTag tag => exact absurd inText (notInSection tag pending)
  | inlineTag tag depth around =>
    have notMarker : ∀ c, Token.isMarker ⟨.word, word, line⟩ c = false := fun c => rfl
    simp only [step, stepInline, notMarker, Bool.false_eq_true, if_false] at inText
    split_ifs at inText with star closes
    cases around with
    | none =>
      rw [Option.map_none, Option.getD_none, stepComment, if_pos closes] at inText
      simp at inText
    | some around => exact absurd inText (notInSection around pending)

private theorem events_space_mark_comment (pending : Text) :
    (comment pending).events [space line, mark line] =
      [.commentText (pending ++ " " ++ "*/"), .exit] := by
  rw [events_space, step_blank (comment pending) fun c => isBlank_of_mem_space, List.nil_append,
    closes_mark.events_comment]
  rfl

private theorem opens_and_closes {word : Text} (opens : Token.opensComment ⟨.word, word, line⟩) :
    Token.opensComment ⟨.word, word ++ "*/", line⟩ ∧
      Token.isWholeComment ⟨.word, word ++ "*/", line⟩ := by
  simp only [Token.opensComment, Bool.and_eq_true] at opens
  have start : ("/**" : Text) <+: word := List.isPrefixOf_iff_prefix.mp opens.1
  have long : 5 ≤ (word ++ "*/".toList).length := by
    have size : 3 ≤ word.length := start.length_le
    simp only [List.length_append]
    exact Nat.add_le_add_right size 2
  constructor
  · have other : word ++ "*/".toList ≠ "/**/" := by
      intro same
      rw [same] at long
      exact absurd long (by decide)
    simp only [Token.opensComment, Bool.and_eq_true, bne_iff_ne]
    exact ⟨List.isPrefixOf_iff_prefix.mpr (start.trans (List.prefix_append _ _)), other⟩
  · simp only [Token.isWholeComment, Bool.and_eq_true, decide_eq_true_eq]
    exact ⟨long, Token.closesComment_append .word word line⟩

/-- A word before the mark may touch it where both are text of the comment. -/
private theorem events_word_alike (place : Place) {word : Text}
    (plain : ∀ c ∈ word, Text.isBlank c = false)
    (ends : EndsInText (now ++ place.events [⟨.word, word, line⟩, space line, mark line])) :
    List.Forall₂ Event.Alike (place.events [⟨.word, word ++ "*/", line⟩])
      (place.events [⟨.word, word, line⟩, space line, mark line]) := by
  have apart : ∀ text : Text, (⟨.word, text, line⟩ : Token).kind ≠ .marker := by simp
  have visible : ∀ before : Text,
      Text.SameVisible (before ++ (word ++ "*/".toList)) (before ++ word ++ " " ++ "*/") := by
    intro before
    have gap := Text.sameVisible_gap (fun c => isBlank_of_mem_space) (before ++ word) "*/"
    rwa [List.append_assoc before] at gap
  rw [events_cons_of_not_marker (apart word)] at ends ⊢
  rw [← List.append_assoc] at ends
  obtain ⟨pending, inText⟩ := comment_of_endsInText _ ends
  rcases step_word place plain inText with ⟨before, rfl, opens, notWhole⟩ | ⟨before, rfl⟩
  · obtain ⟨opens', whole⟩ := opens_and_closes opens
    rw [events_cons_of_not_marker (apart _), step, step, stepOutside, stepOutside, if_pos opens,
      if_neg notWhole, if_pos opens', if_pos whole, events_nil, events_space_mark_comment]
    rw [List.append_assoc, List.append_assoc]
    refine List.rel_append (Event.alike_self _) ?_
    exact .cons (.self _) (.cons (.commentText (visible [])) (.cons .exit .nil))
  · have open_ : ¬ Token.closesComment ⟨.word, word, line⟩ := by
      intro closes
      rw [step, stepComment, if_pos closes] at inText
      simp at inText
    have closing : Closes ⟨.word, word ++ "*/", line⟩ :=
      ⟨by simp, rfl, Token.closesComment_append .word word line⟩
    have stays : (comment before).step ⟨.word, word, line⟩ = ([], comment (before ++ word)) := by
      rw [step, stepComment, if_neg open_]
      rfl
    rw [closing.events_comment, stays, List.nil_append, events_space_mark_comment]
    exact .cons (.commentText (visible before)) (.cons .exit .nil)

/-- A quoted passage may go on to the mark where both are text of the comment. -/
private theorem events_quote_alike (place : Place) {tail : Text}
    (ends : EndsInText (now ++ place.events [⟨.quoted, '"' :: tail ++ " */", line⟩])) :
    List.Forall₂ Event.Alike (place.events [⟨.quoted, '"' :: tail ++ "*/", line⟩])
      (place.events [⟨.quoted, '"' :: tail ++ " */", line⟩]) := by
  have closing : Closes ⟨.quoted, '"' :: tail ++ "*/", line⟩ :=
    ⟨by simp, rfl, Token.closesComment_append .quoted _ line⟩
  have closing' : Closes ⟨.quoted, '"' :: tail ++ " */", line⟩ := by
    have whole : '"' :: tail ++ " */".toList = '"' :: tail ++ " ".toList ++ "*/" := by simp
    rw [whole]
    exact ⟨by simp, rfl, Token.closesComment_append .quoted _ line⟩
  have visible : ∀ before : Text, Text.SameVisible (before ++ ('"' :: tail ++ "*/".toList))
      (before ++ ('"' :: tail ++ " */".toList)) := by
    intro before
    have gap := Text.sameVisible_gap (fun c => isBlank_of_mem_space) (before ++ '"' :: tail) "*/"
    simpa using gap
  have inSection : ∀ (now : List Event) (tag : OpenTag),
      EndsInText (now ++ (sectionTag tag).events [⟨.quoted, '"' :: tail ++ " */", line⟩]) →
      List.Forall₂ Event.Alike ((sectionTag tag).events [⟨.quoted, '"' :: tail ++ "*/", line⟩])
        ((sectionTag tag).events [⟨.quoted, '"' :: tail ++ " */", line⟩]) := by
    intro now tag ends
    have sameLine : Token.spansLines ⟨.quoted, '"' :: tail ++ "*/", line⟩ =
        Token.spansLines ⟨.quoted, '"' :: tail ++ " */", line⟩ := by simp [Token.spansLines]
    rw [closing.events_section, closing'.events_section, sameLine]
    rw [closing'.events_section] at ends
    split_ifs at ends with lacks spans
    · exact absurd ends (not_endsInText_tag _ _ _)
    · exact absurd ends (not_endsInText_tag _ _ _)
    · rw [if_neg lacks, if_neg lacks, if_neg spans, if_neg spans]
      exact .cons (.self _) (.cons (.commentText (visible [])) (.cons .exit .nil))
  cases place with
  | outside pending =>
    rw [closing.events_outside rfl, closing'.events_outside rfl]
    exact .cons (.text _ _) .nil
  | comment pending =>
    rw [closing.events_comment, closing'.events_comment]
    exact .cons (.commentText (visible pending)) (.cons .exit .nil)
  | sectionTag tag => exact inSection now tag ends
  | inlineTag tag depth around =>
    rw [closing'.events_inline, ← List.singleton_append, ← List.append_assoc] at ends
    rw [closing.events_inline, closing'.events_inline]
    refine .cons (.self _) ?_
    cases around with
    | none =>
      rw [Option.map_none, Option.getD_none, closing.events_comment, closing'.events_comment]
      exact .cons (.commentText (visible [])) (.cons .exit .nil)
    | some around => exact inSection _ around ends

end EndsInText

end Place

/-- The closing mark behind the body is a token by itself: before it stand white space, a brace, an
at sign or the end of a quoted passage. -/
def MarkApart (body : Text) : Prop :=
  ∃ t ∈ (Token.scan (body ++ "*/")).getLast?, t.text = "*/"

/-- A space before the closing mark is read alike where the mark is a token by itself, and where the
space belongs to the text of the comment. -/
theorem events_space_alike {body : Text}
    (harmless : MarkApart body ∨ EndsInText (events (body ++ " */"))) :
    List.Forall₂ Event.Alike (events (body ++ "*/")) (events (body ++ " */")) := by
  obtain ⟨front, without, spaced, ending, tokens, tokens'⟩ := Token.endsAlike 0 body
  obtain ⟨now, next, run⟩ := (Place.outside []).exists_run front
  have events_eq : ∀ {ends : List Token} {text : Text}, (∀ u ∈ ends.head?, u.isMarker '@' = false) →
      Token.scanFrom 0 text = front ++ ends → events text = now ++ next.events ends := by
    intro ends text other scanned
    rw [events, Token.scan, scanned, run ends other]
  rw [events_eq ending.heads.2 tokens'] at harmless
  rw [events_eq ending.heads.1 tokens, events_eq ending.heads.2 tokens']
  refine List.rel_append (Event.alike_self _) ?_
  have glued : ∀ {kind : TokenKind} {text : Text} {line : Nat}, text ≠ [] →
      without = [⟨kind, text ++ "*/", line⟩] → EndsInText (now ++ next.events spaced) := by
    intro kind text line ne_nil single
    rcases harmless with ⟨t, last, isMark⟩ | inText
    · rw [Token.scan, tokens, single, List.getLast?_concat] at last
      obtain rfl := Option.some.inj last
      simp [ne_nil] at isMark
    · exact inText
  cases ending with
  | apart line => exact next.events_space_mark line
  | blank gap line blank => exact next.events_gap_mark line blank
  | word text line ne_nil plain => exact next.events_word_alike plain (glued ne_nil rfl)
  | quote tail line => exact next.events_quote_alike (glued (by simp) rfl)

end DocAudit.Comment
