import DocAudit.Proofs.Comment.Written

/-!
Reading undoes writing. The text of a written comment is scanned piece by piece, and a reader goes
over each piece as over nothing else: over free text, over an inline tag, over the line of a section
tag, and over the end of the comment.
-/

set_option autoImplicit false

namespace DocAudit.Comment.Written

section Pieces

variable {line : Nat} {text rest : Text} {t : Token}

private theorem isInfix_of_mem_scanFrom (member : t ∈ Token.scanFrom line text) :
    t.text <:+: text := by
  obtain ⟨before, after, split⟩ := List.append_of_mem member
  refine ⟨Token.join before, Token.join after, ?_⟩
  rw [← Token.join_scanFrom line text, split]
  simp

private theorem not_closesComment (noEnd : ¬ ("*/" : Text) <:+: text)
    (member : t ∈ Token.scanFrom line text) : ¬ t.closesComment := by
  intro closes
  have ending : ("*/" : Text) <:+ t.text := List.isSuffixOf_iff_suffix.mp closes
  exact noEnd (ending.isInfix.trans (isInfix_of_mem_scanFrom member))

private theorem IsFree.unquoted (free : IsFree text) : '"' ∉ text :=
  fun member => (free _ member).2 rfl

private theorem IsFree.of_infix {part : Text} (free : IsFree text) (within : part <:+: text) :
    IsFree part :=
  fun c member => free c (within.subset member)

private theorem IsFree.notMarker (free : IsFree text) (member : t ∈ Token.scanFrom line text) :
    t.kind ≠ .marker := by
  intro kind
  obtain ⟨c, single, marker⟩ := (Token.proper_of_mem_scanFrom member).marker kind
  have inside : c ∈ text := (isInfix_of_mem_scanFrom member).subset (by rw [single]; simp)
  simp [(free c inside).1] at marker

private theorem IsFree.isOrdinary (free : IsFree text) (noEnd : ¬ ("*/" : Text) <:+: text)
    (member : t ∈ Token.scanFrom line text) : t.IsOrdinary :=
  ⟨free.notMarker member, not_closesComment noEnd member⟩

private theorem events_comment_free (line : Nat) (pending : Text) (free : IsFree text)
    (noEnd : ¬ ("*/" : Text) <:+: text) (marker : ∀ b ∈ rest.head?, Token.isMarkerChar b) :
    (Place.comment pending).events (Token.scanFrom line (text ++ rest)) =
      (Place.comment (pending ++ text)).events
        (Token.scanFrom (line + text.lineFeeds) rest) := by
  rw [Token.scanFrom_append line free.unquoted fun a _ b head => Or.inr (Or.inl (marker b head)),
    Place.events_comment_append pending fun t member => free.isOrdinary noEnd member,
    Token.join_scanFrom]

private theorem events_sectionTag_free (line : Nat) (tag : OpenTag) (named : tag.name.isSome)
    (free : IsFree text) (noEnd : ¬ ("*/" : Text) <:+: text) (inLine : '\n' ∉ text)
    (apart : ∀ a ∈ text.getLast?, ∀ b ∈ rest.head?, Token.Apart a b) :
    (Place.sectionTag tag).events (Token.scanFrom line (text ++ rest)) =
      (Place.sectionTag (tag.extend text)).events
        (Token.scanFrom (line + text.lineFeeds) rest) := by
  have within : ∀ t ∈ Token.scanFrom line text, ¬ t.spansLines := by
    intro t member spans
    exact inLine ((isInfix_of_mem_scanFrom member).subset (List.contains_iff_mem.mp spans))
  rw [Token.scanFrom_append line free.unquoted apart,
    Place.events_sectionTag_append tag named (fun t => Token.proper_of_mem_scanFrom)
      (fun t member => free.isOrdinary noEnd member) within, Token.join_scanFrom]

private theorem IsName.isBlank_eq_false {name : Text} (isName : IsName name) :
    ∀ c ∈ name, Text.isBlank c = false :=
  fun c member => Bool.eq_false_iff.mpr (List.any_eq_false.mp isName.solid c member)

private theorem IsName.lineFeeds {name : Text} (isName : IsName name) : name.lineFeeds = 0 :=
  Text.lineFeeds_eq_zero fun member => absurd (isName.isBlank_eq_false _ member) (by decide)

private theorem forall_mem_head?_cons {p : Char → Prop} {c : Char} (holds : p c) (rest : Text) :
    ∀ b ∈ (c :: rest).head?, p b := by
  intro b head
  obtain rfl := Option.some.inj (Option.mem_def.mp head)
  exact holds

private theorem IsName.scanFrom_append {name : Text} (isName : IsName name) (line : Nat)
    (next : ∀ b ∈ rest.head?, Text.isBlank b ∨ Token.isMarkerChar b) :
    Token.scanFrom line (name ++ rest) = ⟨.word, name, line⟩ :: Token.scanFrom line rest := by
  have apart : ∀ a ∈ name.getLast?, ∀ b ∈ rest.head?, Token.Apart a b := by
    intro a last b head
    have solid := isName.isBlank_eq_false a (List.mem_of_getLast? last)
    rcases next b head with blank | marker
    · exact Or.inr (Or.inr (by simp [solid, blank]))
    · exact Or.inr (Or.inl marker)
  rw [Token.scanFrom_append line isName.free.unquoted apart,
    Token.scanFrom_word line isName.ne_nil isName.free.unquoted
      fun c member => ⟨isName.isBlank_eq_false c member, (isName.free c member).1⟩,
    isName.lineFeeds]
  rfl

end Pieces

section Body

private theorem joinWithoutStars_eq (tokens : List Token) :
    Token.joinWithoutStars tokens = ((tokens.map (·.text)).filter (· != ['*'])).flatten := by
  induction tokens with
  | nil => rfl
  | cons t tokens ih =>
    by_cases star : t.text = ['*']
    · simp_all [Token.joinWithoutStars, Token.isStar]
    · simp_all [Token.joinWithoutStars, Token.isStar]

private theorem isBlank_of_mem_joinWithoutStars {line : Nat} {text : Text}
    (blank : ∀ c ∈ text, Text.isBlank c) :
    ∀ c ∈ Token.joinWithoutStars (Token.scanFrom line text), Text.isBlank c := by
  intro c member
  obtain ⟨t, kept, inside⟩ := List.mem_flatMap.mp member
  exact blank c ((isInfix_of_mem_scanFrom (List.mem_of_mem_filter kept)).subset inside)

private theorem trimLeft_joinWithoutStars (line : Nat) {gap body : Text}
    (blank : ∀ c ∈ gap, Text.isBlank c) :
    Text.trimLeft (Token.joinWithoutStars (Token.scanFrom line (gap ++ body))) =
      Text.trimLeft (Token.joinWithoutStars (Token.scan (Text.trimLeft body))) := by
  -- The gap and the white space that the body starts with are one token.
  have split : gap ++ body = (gap ++ body.takeWhile Text.isBlank) ++ Text.trimLeft body := by
    rw [List.append_assoc, Text.trimLeft, List.takeWhile_append_dropWhile]
  have blank' : ∀ c ∈ gap ++ body.takeWhile Text.isBlank, Text.isBlank c := by
    intro c member
    rcases List.mem_append.mp member with first | second
    · exact blank c first
    · exact List.all_eq_true.mp List.all_takeWhile c second
  have unquoted : '"' ∉ gap ++ body.takeWhile Text.isBlank :=
    fun member => absurd (blank' _ member) (by decide)
  have apart : ∀ a ∈ (gap ++ body.takeWhile Text.isBlank).getLast?,
      ∀ b ∈ (Text.trimLeft body).head?, Token.Apart a b := by
    intro a last b head
    have visible : Text.isBlank b = false := by
      have first := List.head?_dropWhile_not Text.isBlank body
      rw [Text.trimLeft] at head
      rwa [Option.mem_def.mp head] at first
    have before := blank' a (List.mem_of_getLast? last)
    exact Or.inr (Or.inr (by rw [before, visible]; exact Bool.noConfusion))
  have nothing : Text.trimLeft (Token.joinWithoutStars
      (Token.scanFrom line (gap ++ body.takeWhile Text.isBlank))) = [] :=
    List.dropWhile_eq_nil_iff.mpr (isBlank_of_mem_joinWithoutStars blank')
  rw [split, Token.scanFrom_append line unquoted apart, Token.joinWithoutStars_append,
    Text.trimLeft_append, nothing, List.isEmpty_nil, if_pos rfl, joinWithoutStars_eq,
    Token.map_text_scanFrom _ 0, ← joinWithoutStars_eq, Token.scan]

namespace InlineTag

variable {tag : InlineTag}

private theorem Valid.isBlank_of_mem_gap (valid : tag.Valid) : ∀ c ∈ tag.gap, Text.isBlank c :=
  List.all_eq_true.mp valid.gap

private theorem Valid.argument_eq (valid : tag.Valid) (line : Nat) :
    Text.trimLeft (Token.joinWithoutStars (Token.scanFrom line (tag.gap ++ tag.body))) =
      tag.argument := by
  have own := @trimLeft_joinWithoutStars 0 [] tag.body (by simp)
  rw [trimLeft_joinWithoutStars line valid.isBlank_of_mem_gap, ← own]
  rfl

private theorem Valid.unquoted' (valid : tag.Valid) : '"' ∉ tag.gap ++ tag.body := by
  intro member
  rcases List.mem_append.mp member with first | second
  · exact absurd (valid.isBlank_of_mem_gap _ first) (by decide)
  · exact valid.unquoted second

private theorem Valid.depthAfter? (valid : tag.Valid) :
    Text.depthAfter? 0 (tag.gap ++ tag.body) = some 0 := by
  rw [Text.depthAfter?_append (Text.depthAfter?_of_no_brace 0 fun c member => ?_)]
  · exact valid.balanced
  · have blank := valid.isBlank_of_mem_gap c member
    constructor
    · rintro rfl
      exact absurd blank (by decide)
    · rintro rfl
      exact absurd blank (by decide)

private theorem Valid.lineFeeds (valid : tag.Valid) :
    tag.text.lineFeeds = Text.lineFeeds (tag.gap ++ tag.body) := by
  have brace : Text.lineFeeds ['}'] = 0 := rfl
  rw [InlineTag.text, Text.lineFeeds_cons_of_ne (by decide), Text.lineFeeds_cons_of_ne (by decide),
    Text.lineFeeds_append, Text.lineFeeds_append, valid.name.lineFeeds, brace, Nat.zero_add,
    Nat.add_zero]

private theorem Valid.scanFrom (valid : tag.Valid) (line : Nat) (rest : Text) :
    Token.scanFrom line (tag.text ++ rest) =
      ⟨.marker, ['{'], line⟩ :: ⟨.marker, ['@'], line⟩ :: ⟨.word, tag.name, line⟩ ::
        (Token.scanFrom line (tag.gap ++ tag.body) ++
          ⟨.marker, ['}'], line + tag.text.lineFeeds⟩ ::
            Token.scanFrom (line + tag.text.lineFeeds) rest) := by
  have split : tag.text ++ rest =
      '{' :: '@' :: (tag.name ++ ((tag.gap ++ tag.body) ++ '}' :: rest)) := by
    simp [InlineTag.text]
  have afterName : ∀ b ∈ ((tag.gap ++ tag.body) ++ '}' :: rest).head?,
      Text.isBlank b ∨ Token.isMarkerChar b := by
    cases gap : tag.gap with
    | nil =>
      rw [valid.body_eq_nil gap]
      exact forall_mem_head?_cons (Or.inr rfl) rest
    | cons c gap' =>
      have blank := valid.isBlank_of_mem_gap c (by rw [gap]; exact List.mem_cons_self)
      exact forall_mem_head?_cons (Or.inl blank) _
  have afterBody : ∀ a ∈ (tag.gap ++ tag.body).getLast?, ∀ b ∈ ('}' :: rest).head?,
      Token.Apart a b :=
    fun a _ => forall_mem_head?_cons (Or.inr (Or.inl rfl)) rest
  rw [split, Token.scanFrom_marker_cons line rfl, Token.scanFrom_marker_cons line rfl,
    valid.name.scanFrom_append line afterName, Token.scanFrom_append line valid.unquoted' afterBody,
    ← valid.lineFeeds, Token.scanFrom_marker_cons _ rfl]

private theorem Valid.events (valid : tag.Valid) (line : Nat) (rest : Text) {place : Place}
    {now : List Event} {around : Option OpenTag} (noEnd : ¬ ("*/" : Text) <:+: tag.text)
    (opens : ∀ brace atSign : Token, brace.isMarker '{' → atSign.isMarker '@' →
      place.openInline? brace atSign = some (now, .inlineTag { line := atSign.line } 0 around)) :
    place.events (Token.scanFrom line (tag.text ++ rest)) =
      now ++ tag.event line ::
        Place.events ((around.map Place.sectionTag).getD (.comment []))
          (Token.scanFrom (line + tag.text.lineFeeds) rest) := by
  have within : ∀ {part : Text}, part <:+: tag.text → ¬ ("*/" : Text) <:+: part :=
    fun isInfix ending => noEnd (ending.trans isInfix)
  have nameEnd : ¬ ("*/" : Text) <:+: tag.name :=
    within ⟨['{', '@'], tag.gap ++ tag.body ++ ['}'], by simp [InlineTag.text]⟩
  have bodyEnd : ¬ ("*/" : Text) <:+: tag.gap ++ tag.body :=
    within ⟨['{', '@'] ++ tag.name, ['}'], by simp [InlineTag.text]⟩
  have open_ : ¬ (⟨.word, tag.name, line⟩ : Token).closesComment := by
    intro closes
    exact nameEnd (List.isSuffixOf_iff_suffix.mp closes).isInfix
  have nameStep : (Place.inlineTag { line := line } 0 around).step ⟨.word, tag.name, line⟩ =
      ([], .inlineTag { line := line, name := some tag.name } 0 around) := by
    simp [Place.step, Place.stepInline, Token.isStar, valid.name.ne_star, open_, OpenTag.lacks,
      OpenTag.named, Token.isBlank]
  rw [valid.scanFrom, Place.events_of_open (opens _ _ rfl rfl),
    Place.events_cons fun u _ => Place.openInline?_inlineTag _ _ _ _ u, nameStep, List.nil_append,
    Place.events_inlineTag_append _ rfl around (fun t => Token.proper_of_mem_scanFrom)
      (by rw [Token.join_scanFrom]; exact valid.unquoted')
      (fun t => not_closesComment bodyEnd)
      (by rw [Token.join_scanFrom]; exact valid.depthAfter?),
    Place.events_cons fun u _ => Place.openInline?_inlineTag _ _ _ _ u]
  have argument : ((OpenTag.mk line (some tag.name) []).extend (Token.joinWithoutStars
      (Token.scanFrom line (tag.gap ++ tag.body)))).event = tag.event line := by
    rw [OpenTag.event, OpenTag.extend, InlineTag.event, ← valid.argument_eq line]
    rfl
  rw [← argument]
  rfl

end InlineTag

end Body

namespace Mix

private theorem inlinesText_cons (first : Text) (tag : InlineTag)
    (inlines : List (Text × InlineTag)) :
    inlinesText ((first, tag) :: inlines) = first ++ (tag.text ++ inlinesText inlines) := by
  simp [inlinesText]

private theorem isMarkerChar_head {tag : InlineTag} {rest : Text} :
    ∀ b ∈ (tag.text ++ rest).head?, Token.isMarkerChar b :=
  forall_mem_head?_cons (p := fun c => Token.isMarkerChar c) rfl _

private theorem events_description (line : Nat) (inlines : List (Text × InlineTag)) (rest : Text)
    (free : ∀ part ∈ inlines, IsFree part.1) (valid : ∀ part ∈ inlines, part.2.Valid)
    (noEnd : ¬ ("*/" : Text) <:+: inlinesText inlines) :
    (Place.comment []).events (Token.scanFrom line (inlinesText inlines ++ rest)) =
      descriptionEvents line inlines ++ (Place.comment []).events
        (Token.scanFrom (line + Text.lineFeeds (inlinesText inlines)) rest) := by
  induction inlines generalizing line with
  | nil => rfl
  | cons part inlines ih =>
    obtain ⟨first, tag⟩ := part
    obtain ⟨freeHead, free⟩ := List.forall_mem_cons.mp free
    obtain ⟨validHead, valid⟩ := List.forall_mem_cons.mp valid
    rw [inlinesText_cons] at noEnd
    have within : ∀ {part : Text}, part <:+: first ++ (tag.text ++ inlinesText inlines) →
        ¬ ("*/" : Text) <:+: part :=
      fun isInfix ending => noEnd (ending.trans isInfix)
    have opens : ∀ brace atSign : Token, brace.isMarker '{' → atSign.isMarker '@' →
        (Place.comment first).openInline? brace atSign =
          some (Event.inComment first, .inlineTag { line := atSign.line } 0 none) := by
      intro brace atSign isBrace isAtSign
      simp [Place.openInline?, isBrace, isAtSign]
    have later := ih (line + Text.lineFeeds (first ++ tag.text)) free valid
      (within ⟨first ++ tag.text, [], by simp⟩)
    rw [inlinesText_cons, List.append_assoc, List.append_assoc,
      events_comment_free line [] freeHead (within ⟨[], _, rfl⟩) isMarkerChar_head,
      List.nil_append, validHead.events _ _ (within ⟨first, inlinesText inlines, by simp⟩) opens]
    simp only [Option.map_none, Option.getD_none, descriptionEvents, List.append_assoc,
      List.cons_append, Text.lineFeeds_append, ← Nat.add_assoc] at later ⊢
    rw [later]

private theorem events_argument (line : Nat) (inlines : List (Text × InlineTag)) (rest : Text)
    (tag : OpenTag) (named : tag.name.isSome) (free : ∀ part ∈ inlines, IsFree part.1)
    (valid : ∀ part ∈ inlines, part.2.Valid) (inLine : ∀ part ∈ inlines, '\n' ∉ part.1)
    (noEnd : ¬ ("*/" : Text) <:+: inlinesText inlines) :
    (Place.sectionTag tag).events (Token.scanFrom line (inlinesText inlines ++ rest)) =
      inlineEvents line inlines ++
        (Place.sectionTag (tag.extend (inlines.flatMap Prod.fst))).events
          (Token.scanFrom (line + Text.lineFeeds (inlinesText inlines)) rest) := by
  induction inlines generalizing line tag with
  | nil => simp [inlinesText, inlineEvents]
  | cons part inlines ih =>
    obtain ⟨first, inline⟩ := part
    obtain ⟨freeHead, free⟩ := List.forall_mem_cons.mp free
    obtain ⟨validHead, valid⟩ := List.forall_mem_cons.mp valid
    obtain ⟨inLineHead, inLine⟩ := List.forall_mem_cons.mp inLine
    rw [inlinesText_cons] at noEnd
    have within : ∀ {part : Text}, part <:+: first ++ (inline.text ++ inlinesText inlines) →
        ¬ ("*/" : Text) <:+: part :=
      fun isInfix ending => noEnd (ending.trans isInfix)
    have opens : ∀ brace atSign : Token, brace.isMarker '{' → atSign.isMarker '@' →
        (Place.sectionTag (tag.extend first)).openInline? brace atSign =
          some ([], .inlineTag { line := atSign.line } 0 (some (tag.extend first))) := by
      intro brace atSign isBrace isAtSign
      simp [Place.openInline?, isBrace, isAtSign, named]
    have later := ih (line + Text.lineFeeds (first ++ inline.text)) (tag.extend first) named free
      valid inLine (within ⟨first ++ inline.text, [], by simp⟩)
    rw [inlinesText_cons, List.append_assoc, List.append_assoc,
      events_sectionTag_free line tag named freeHead (within ⟨[], _, rfl⟩) inLineHead
        (fun a _ b head => Or.inr (Or.inl (isMarkerChar_head b head))),
      validHead.events _ _ (within ⟨first, inlinesText inlines, by simp⟩) opens, List.nil_append]
    simp only [Option.map_some, Option.getD_some, inlineEvents, List.cons_append,
      List.flatMap_cons, Text.lineFeeds_append, ← Nat.add_assoc, OpenTag.extend_extend] at later ⊢
    rw [later]

theorem text_prepend (more : Text) (m : Mix) : (m.prepend more).text = more ++ m.text := by
  obtain ⟨inlines, last⟩ := m
  cases inlines <;> simp [prepend, text, inlinesText]

theorem free_prepend (more : Text) (m : Mix) : (m.prepend more).free = more ++ m.free := by
  obtain ⟨inlines, last⟩ := m
  cases inlines <;> simp [prepend, free]

theorem tags_prepend (more : Text) (m : Mix) : (m.prepend more).tags = m.tags := by
  obtain ⟨inlines, last⟩ := m
  cases inlines <;> rfl

private theorem inlineEvents_prepend (line : Nat) {more : Text} (inLine : more.lineFeeds = 0)
    (m : Mix) : inlineEvents line (m.prepend more).inlines = inlineEvents line m.inlines := by
  obtain ⟨inlines, last⟩ := m
  cases inlines <;> simp [prepend, inlineEvents, inLine]

theorem Valid.prepend {m : Mix} (valid : m.Valid) {more : Text} (free : IsFree more) :
    (m.prepend more).Valid where
  free := by
    rw [free_prepend]
    intro c member
    rcases List.mem_append.mp member with first | second
    · exact free c first
    · exact valid.free c second
  inlines := by
    have inlines := valid.inlines
    obtain ⟨_ | ⟨part, rest⟩, last⟩ := m
    · exact inlines
    · obtain ⟨head, others⟩ := List.forall_mem_cons.mp inlines
      exact List.forall_mem_cons.mpr ⟨head, others⟩

private theorem Valid.free_part {m : Mix} (valid : m.Valid) :
    ∀ part ∈ m.inlines, IsFree part.1 := by
  intro part member c inside
  exact valid.free c (List.mem_append_left _ (List.mem_flatMap.mpr ⟨part, member, inside⟩))

private theorem Valid.free_last {m : Mix} (valid : m.Valid) : IsFree m.last :=
  fun c inside => valid.free c (List.mem_append_right _ inside)

end Mix

private theorem events_lineEnd (line : Nat) (tag : OpenTag) (named : tag.name.isSome)
    (rest : Text) :
    (Place.sectionTag tag).events (Token.scanFrom line ('\n' :: rest)) =
      tag.event :: (Place.comment []).events (Token.scanFrom line ('\n' :: rest)) := by
  have kind : Token.kindOf '\n' = .blank := by decide
  obtain ⟨t, more, tokens, isBlank, starts⟩ : ∃ t more,
      Token.scanFrom line ('\n' :: rest) = t :: more ∧ t.kind = .blank ∧ '\n' ∈ t.text :=
    ⟨_, _, Token.scanFrom_cons _ _ _, kind, List.mem_cons_self⟩
  have notMarker : t.kind ≠ .marker := by simp [isBlank]
  have spans : t.spansLines := List.contains_iff_mem.mpr starts
  have blank : t.isBlank := beq_iff_eq.mpr isBlank
  have open_ : ¬ t.closesComment := by
    intro closes
    have proper : t.Proper :=
      Token.proper_of_mem_scanFrom (by rw [tokens]; exact List.mem_cons_self)
    have slash : '/' ∈ t.text := (List.isSuffixOf_iff_suffix.mp closes).subset (by decide)
    exact absurd (proper.blank blank _ slash) (by decide)
  have lacks : tag.lacks t = false := by
    obtain ⟨name, isName⟩ := Option.isSome_iff_exists.mp named
    simp [OpenTag.lacks, isName]
  rw [tokens, Place.events_cons fun u _ => Place.openInline?_of_not_marker _ notMarker u,
    Place.events_cons fun u _ => Place.openInline?_of_not_marker _ notMarker u]
  simp [Place.step, Place.stepSection, Place.stepComment, lacks, spans, blank, open_,
    Token.isMarker_of_kind_ne notMarker]

private theorem events_sectionStart (line : Nat) (pending : Text) {name rest : Text}
    (isName : IsName name) (next : ∀ b ∈ rest.head?, Text.isBlank b ∨ Token.isMarkerChar b) :
    (Place.comment pending).events (Token.scanFrom line ('@' :: (name ++ rest))) =
      Event.inComment pending ++
        (Place.sectionTag { line := line, name := some name }).events
          (Token.scanFrom line rest) := by
  have plain : ∀ u, (Place.comment pending).openInline? ⟨.marker, ['@'], line⟩ u = none := by
    intro u
    simp [Place.openInline?, Token.isMarker]
  have markStep : (Place.comment pending).step ⟨.marker, ['@'], line⟩ =
      (Event.inComment pending, .sectionTag { line := line }) := rfl
  have nameStep : (Place.sectionTag { line := line }).step ⟨.word, name, line⟩ =
      ([], .sectionTag { line := line, name := some name }) := by
    simp [Place.step, Place.stepSection, OpenTag.lacks, OpenTag.named, Token.isBlank]
  rw [Token.scanFrom_marker_cons line rfl, isName.scanFrom_append line next,
    Place.events_cons fun u _ => plain u, markStep,
    Place.events_cons fun u _ => Place.openInline?_of_not_marker _ (by simp) u, nameStep,
    List.nil_append]

private theorem Mix.Valid.events_line {m : Mix} (valid : m.Valid) (line : Nat) (tag : OpenTag)
    (named : tag.name.isSome) (rest : Text) (noEnd : ¬ ("*/" : Text) <:+: m.text)
    (inLine : '\n' ∉ m.free) (ends : ∀ a ∈ m.text.getLast?, Text.isBlank a = false) :
    (Place.sectionTag tag).events (Token.scanFrom line (m.text ++ '\n' :: rest)) =
      Mix.inlineEvents line m.inlines ++ (tag.extend m.free).event ::
        (Place.comment []).events
          (Token.scanFrom (line + m.text.lineFeeds) ('\n' :: rest)) := by
  have apart : ∀ a ∈ m.last.getLast?, ∀ b ∈ ('\n' :: rest).head?, Token.Apart a b := by
    intro a last
    have atEnd : a ∈ m.text.getLast? := by
      rw [Mix.text, List.getLast?_append]
      simp [Option.mem_def.mp last]
    exact forall_mem_head?_cons (Or.inr (Or.inr (by rw [ends a atEnd]; decide))) rest
  rw [Mix.text] at noEnd ⊢
  rw [List.append_assoc, Mix.events_argument line m.inlines _ tag named valid.free_part
      valid.inlines
      (fun part member inside => inLine
        (List.mem_append_left _ (List.mem_flatMap.mpr ⟨part, member, inside⟩)))
      (fun ending => noEnd (ending.trans (List.prefix_append _ _).isInfix)),
    events_sectionTag_free _ (tag.extend (m.inlines.flatMap Prod.fst)) named valid.free_last
      (fun ending => noEnd (ending.trans (List.suffix_append _ _).isInfix))
      (fun inside => inLine (List.mem_append_right _ inside)) apart,
    events_lineEnd _ ((tag.extend (m.inlines.flatMap Prod.fst)).extend m.last) named,
    OpenTag.extend_extend, Text.lineFeeds_append, Nat.add_assoc]
  rfl

private theorem SectionTag.Valid.events_line {tag : SectionTag} (valid : tag.Valid) (line : Nat)
    (pending rest : Text) (noEnd : ¬ ("*/" : Text) <:+: tag.line) :
    (Place.comment pending).events (Token.scanFrom line (tag.line ++ '\n' :: rest)) =
      Event.inComment pending ++ tag.events line ++ (Place.comment []).events
        (Token.scanFrom (line + tag.line.lineFeeds) ('\n' :: rest)) := by
  -- The blank after the name is scanned together with the argument.
  have text : (tag.argument.prepend " ").text = ' ' :: tag.argument.text :=
    Mix.text_prepend _ _
  have free : (tag.argument.prepend " ").free = ' ' :: tag.argument.free :=
    Mix.free_prepend _ _
  have noEnd' : ¬ ("*/" : Text) <:+: (tag.argument.prepend " ").text := by
    intro ending
    refine noEnd (ending.trans ⟨'@' :: tag.name, [], ?_⟩)
    rw [text]
    simp [SectionTag.line]
  have inLine : '\n' ∉ (tag.argument.prepend " ").free := by
    rw [free, List.mem_cons, not_or]
    exact ⟨by decide, valid.argument_inLine⟩
  have ends : ∀ a ∈ (tag.argument.prepend " ").text.getLast?, Text.isBlank a = false := by
    rw [text, List.getLast?_cons_of_ne_nil valid.argument_ne_nil]
    exact valid.argument_ends
  have split : tag.line ++ '\n' :: rest =
      '@' :: (tag.name ++ ((tag.argument.prepend " ").text ++ '\n' :: rest)) := by
    rw [text]
    simp [SectionTag.line]
  have lineFeeds : tag.line.lineFeeds = (tag.argument.prepend " ").text.lineFeeds := by
    rw [text, SectionTag.line, Text.lineFeeds_cons_of_ne (by decide), Text.lineFeeds_append,
      valid.name.lineFeeds, Nat.zero_add]
  have next : ∀ b ∈ ((tag.argument.prepend " ").text ++ '\n' :: rest).head?,
      Text.isBlank b ∨ Token.isMarkerChar b := by
    rw [text]
    exact forall_mem_head?_cons (Or.inl rfl) _
  rw [split, events_sectionStart line pending valid.name next,
    (valid.argument.prepend (by decide)).events_line line _ rfl rest noEnd' inLine ends,
    Mix.inlineEvents_prepend line rfl, free, ← lineFeeds, SectionTag.events]
  have own : ((OpenTag.mk line (some tag.name) []).extend (' ' :: tag.argument.free)).event =
      .tag line tag.name (Text.trimLeft tag.argument.free) := rfl
  rw [own, List.append_assoc, List.append_assoc, List.singleton_append]

private theorem events_end_tokens (pending : Text) {tokens : List Token}
    (notMarker : ∀ t ∈ tokens, t.kind ≠ .marker)
    (open_ : ∀ t ∈ tokens.dropLast, ¬ t.closesComment) :
    (Place.comment pending).events tokens = Event.close (pending ++ Token.join tokens) := by
  induction tokens generalizing pending with
  | nil => simp [Place.finish]
  | cons t tokens ih =>
    obtain ⟨notMarkerHead, notMarker⟩ := List.forall_mem_cons.mp notMarker
    rw [Place.events_cons fun u _ => Place.openInline?_of_not_marker _ notMarkerHead u]
    cases tokens with
    | nil =>
      -- The comment ends here with the text of the last token, whether or not this one ends it.
      by_cases closes : t.closesComment
      · simp [Place.step, Place.stepComment, closes, Place.finish, Event.plain]
      · simp [Place.step, Place.stepComment, closes, Place.finish,
          Token.isMarker_of_kind_ne notMarkerHead]
    | cons u tokens =>
      rw [List.dropLast_cons_cons] at open_
      obtain ⟨openHead, open_⟩ := List.forall_mem_cons.mp open_
      have step : (Place.comment pending).step t = ([], .comment (pending ++ t.text)) := by
        simp [Place.step, Place.stepComment, openHead, Token.isMarker_of_kind_ne notMarkerHead]
      rw [step, List.nil_append, ih (pending ++ t.text) notMarker open_, Token.join_cons t,
        List.append_assoc]

private theorem not_closesComment_of_mem_dropLast {line : Nat} {text : Text} {t : Token}
    (noEnd : ¬ ("*/" : Text) <:+: text)
    (member : t ∈ (Token.scanFrom line (text ++ ("*/" : Text))).dropLast) :
    ¬ t.closesComment := by
  intro closes
  obtain ⟨start, ending⟩ : ("*/" : Text) <:+ t.text := List.isSuffixOf_iff_suffix.mp closes
  obtain ⟨before, after, split⟩ := List.append_of_mem member
  have ne_nil : Token.scanFrom line (text ++ ("*/" : Text)) ≠ [] := by
    intro nothing
    rw [nothing] at member
    exact List.not_mem_nil member
  obtain ⟨last, tokens⟩ : ∃ last, Token.scanFrom line (text ++ ("*/" : Text)) =
      before ++ t :: after ++ [last] :=
    ⟨_, by rw [← split]; exact (List.dropLast_append_getLast ne_nil).symm⟩
  have proper : last.Proper := Token.proper_of_mem_scanFrom (by rw [tokens]; simp)
  obtain ⟨init, c, lastText⟩ : ∃ init c, last.text = init ++ [c] :=
    ⟨_, _, (List.dropLast_append_getLast proper.text_ne_nil).symm⟩
  have whole : (text ++ ['*']) ++ ['/'] =
      (Token.join before ++ start ++ ("*/" : Text) ++ (Token.join after ++ init)) ++ [c] := by
    have joined := Token.join_scanFrom line (text ++ ("*/" : Text))
    rw [tokens] at joined
    simpa [← ending, lastText] using joined.symm
  -- The token after it takes at least the last character away.
  have shorter : ("*/" : Text) <:+: text ++ ['*'] :=
    ⟨Token.join before ++ start, Token.join after ++ init, (List.append_inj_left' whole rfl).symm⟩
  rcases List.infix_concat_iff.mp shorter with ⟨prior, atEnd⟩ | inside
  · have final := congrArg List.getLast? atEnd
    simp at final
  · exact noEnd inside

private theorem events_end (line : Nat) {text : Text} (free : IsFree text)
    (noEnd : ¬ ("*/" : Text) <:+: text) :
    (Place.comment []).events (Token.scanFrom line (text ++ ("*/" : Text))) =
      Event.inComment (text ++ ("*/" : Text)) ++ [.exit] := by
  have mark : IsFree ("*/" : Text) := by decide
  have free' : IsFree (text ++ ("*/" : Text)) := by
    intro c member
    rcases List.mem_append.mp member with first | second
    · exact free c first
    · exact mark c second
  rw [events_end_tokens [] (fun t => free'.notMarker) fun t member =>
    not_closesComment_of_mem_dropLast noEnd member, Token.join_scanFrom]
  rfl

private theorem events_eventsFrom (line : Nat) (description : Mix) (sections : List SectionTag)
    (valid : description.Valid) (valids : ∀ tag ∈ sections, tag.Valid)
    (noEnd : ¬ ("*/" : Text) <:+: description.text ++ sections.flatMap SectionTag.text) :
    (Place.comment []).events (Token.scanFrom line
        (description.text ++ sections.flatMap SectionTag.text ++ ("*/" : Text))) =
      eventsFrom line description sections ++ [.exit] := by
  -- The line feed and the text below a section tag are the next description.
  induction sections generalizing line description with
  | nil =>
    have within : ∀ {part : Text}, part <:+: description.text → ¬ ("*/" : Text) <:+: part := by
      intro part isInfix ending
      exact noEnd (by simpa using ending.trans isInfix)
    have last : description.last <:+: description.text := (List.suffix_append _ _).isInfix
    rw [List.flatMap_nil, List.append_nil, Mix.text, List.append_assoc,
      Mix.events_description line _ _ valid.free_part valid.inlines
        (within (List.prefix_append _ _).isInfix),
      events_end _ valid.free_last (within last), eventsFrom, List.append_assoc]
  | cons tag sections ih =>
    obtain ⟨validTag, valids⟩ := List.forall_mem_cons.mp valids
    have below : (tag.description.prepend "\n").text = '\n' :: tag.description.text :=
      Mix.text_prepend _ _
    have whole : description.text ++ (tag :: sections).flatMap SectionTag.text =
        Mix.inlinesText description.inlines ++ (description.last ++ (tag.line ++
          ((tag.description.prepend "\n").text ++ sections.flatMap SectionTag.text))) := by
      rw [below]
      simp [Mix.text, SectionTag.text]
    rw [whole] at noEnd ⊢
    have within : ∀ {part : Text}, part <:+: Mix.inlinesText description.inlines ++
        (description.last ++ (tag.line ++
          ((tag.description.prepend "\n").text ++ sections.flatMap SectionTag.text))) →
        ¬ ("*/" : Text) <:+: part :=
      fun isInfix ending => noEnd (ending.trans isInfix)
    have marker : ∀ rest : Text, ∀ b ∈ (tag.line ++ rest).head?, Token.isMarkerChar b :=
      fun rest => forall_mem_head?_cons (p := fun c => Token.isMarkerChar c) rfl _
    have later := ih (line + description.text.lineFeeds + tag.line.lineFeeds)
      (tag.description.prepend "\n") (validTag.description.prepend (by decide)) valids
      (within ⟨Mix.inlinesText description.inlines ++ description.last ++ tag.line, [], by simp⟩)
    simp only [List.append_assoc]
    rw [Mix.events_description line _ _ valid.free_part valid.inlines
        (within (List.prefix_append _ _).isInfix),
      events_comment_free _ [] valid.free_last
        (within ⟨Mix.inlinesText description.inlines, _, by simp; rfl⟩) (marker _)]
    have lines : line + description.text.lineFeeds =
        line + Text.lineFeeds (Mix.inlinesText description.inlines) +
          description.last.lineFeeds := by
      rw [Mix.text, Text.lineFeeds_append, Nat.add_assoc]
    rw [List.append_assoc, below, List.cons_append, lines] at later
    rw [below, List.cons_append, validTag.events_line _ _ _
      (within ⟨Mix.inlinesText description.inlines ++ description.last, _, by simp; rfl⟩), later]
    simp only [eventsFrom, lines, List.append_assoc, List.nil_append]

private theorem events_enter {rest : Text} (starts : ∃ c ∈ rest.head?, Text.isBlank c) :
    Comment.events (("/**" : Text) ++ rest) =
      .enter 0 :: (Place.comment []).events (Token.scanFrom 0 (("/**" : Text) ++ rest)) := by
  have mark : IsName ("/**" : Text) := ⟨by decide, by decide, by decide, by decide⟩
  have next : ∀ b ∈ rest.head?, Text.isBlank b ∨ Token.isMarkerChar b := by
    intro b head
    obtain ⟨c, head', blank⟩ := starts
    obtain rfl := Option.mem_unique head head'
    exact Or.inl blank
  have tokens := mark.scanFrom_append 0 next
  have plain : ∀ place : Place, ∀ u, place.openInline? ⟨.word, "/**", 0⟩ u = none :=
    fun place u => Place.openInline?_of_not_marker place (by simp) u
  have outside : (Place.outside []).step ⟨.word, "/**", 0⟩ =
      ([.enter 0], .comment ("/**" : Text)) := rfl
  have inside : (Place.comment []).step ⟨.word, "/**", 0⟩ = ([], .comment ("/**" : Text)) := rfl
  rw [Comment.events, Token.scan, tokens, Place.events_cons fun u _ => plain _ u, outside,
    Place.events_cons fun u _ => plain _ u, inside]
  rfl

private theorem tags_inlineEvents (line : Nat) (m : Mix) :
    Comment.tags (Mix.inlineEvents line m.inlines) = m.tags := by
  rw [Mix.tags]
  induction m.inlines generalizing line with
  | nil => rfl
  | cons part inlines ih =>
    rw [Mix.inlineEvents, InlineTag.event, tags_cons_tag, ih]
    rfl

private theorem tags_descriptionEvents (line : Nat) (m : Mix) :
    Comment.tags (Mix.descriptionEvents line m.inlines) = m.tags := by
  rw [Mix.tags]
  induction m.inlines generalizing line with
  | nil => rfl
  | cons part inlines ih =>
    rw [Mix.descriptionEvents, InlineTag.event, tags_append, tags_inComment, tags_cons_tag, ih]
    rfl

private theorem tags_eventsFrom (line : Nat) (description : Mix) (sections : List SectionTag) :
    Comment.tags (eventsFrom line description sections) =
      description.tags ++ sections.flatMap SectionTag.tags := by
  induction sections generalizing line description with
  | nil =>
    rw [eventsFrom, tags_append, tags_descriptionEvents, tags_inComment]
    rfl
  | cons tag sections ih =>
    rw [eventsFrom]
    simp [tags_descriptionEvents, tags_inlineEvents, ih, SectionTag.events, SectionTag.tags,
      Mix.tags_prepend]

/-- Reading a written comment gives exactly the events that it was written from: each tag once, with
its name, its argument and the number of lines before it, and all other text in between. -/
theorem events_written (w : Written) (valid : w.Valid) :
    Comment.events w.text = w.events ∧ Comment.tags (Comment.events w.text) = w.tags := by
  have text : w.text = (w.description.prepend "/**").text ++
      w.sections.flatMap SectionTag.text ++ ("*/" : Text) := by
    rw [Mix.text_prepend]
    rfl
  have noEnd : ¬ ("*/" : Text) <:+:
      (w.description.prepend "/**").text ++ w.sections.flatMap SectionTag.text := by
    rw [Mix.text_prepend]
    exact valid.closed_once
  have starts : ∃ c ∈ List.head? (w.description.text ++ (w.sections.flatMap SectionTag.text ++
      ("*/" : Text))), Text.isBlank c := by
    obtain ⟨c, head, blank⟩ := valid.starts
    exact ⟨c, List.mem_head?_append_of_mem_head? head, blank⟩
  have events : Comment.events w.text = w.events := by
    have enter := events_enter starts
    rw [text, Mix.text_prepend, List.append_assoc, List.append_assoc, enter, Written.events,
      ← events_eventsFrom 0 _ _ (valid.description.prepend (by decide)) valid.sections noEnd,
      Mix.text_prepend, List.append_assoc, List.append_assoc]
  refine ⟨events, ?_⟩
  rw [events, Written.events]
  have opening : ∀ rest : List Event, Comment.tags (.enter 0 :: rest) = Comment.tags rest :=
    fun rest => rfl
  rw [opening, tags_append, tags_eventsFrom, Mix.tags_prepend]
  exact List.append_nil _

/-- An inline tag over two lines in the description, and one in the argument of a section tag. -/
def addition : Written where
  description := ⟨[(" Adds ", ⟨"code", " ", "a {b}\n * c"⟩)], ".\n * "⟩
  sections := [⟨"return", ⟨[("the ", ⟨"b", [], []⟩)], "sum"⟩, ⟨[], " "⟩⟩]

private theorem addition_valid : addition.Valid where
  description :=
    { free := by decide
      inlines := List.forall_mem_singleton.mpr
        ⟨⟨by decide, by decide, by decide, by decide⟩, by decide, by decide, by decide, by decide⟩ }
  starts := ⟨' ', by decide, by decide⟩
  sections := List.forall_mem_singleton.mpr
    { name := ⟨by decide, by decide, by decide, by decide⟩
      argument := ⟨by decide, List.forall_mem_singleton.mpr
        ⟨⟨by decide, by decide, by decide, by decide⟩, by decide, by decide, by decide, by decide⟩⟩
      argument_ne_nil := by decide
      argument_ends := by
        intro c last
        obtain rfl := Option.some.inj (Option.mem_def.mp last)
        rfl
      argument_inLine := by decide
      description := ⟨by decide, List.forall_mem_nil _⟩ }
  closed_once := by decide +kernel

/-- The star of the second line is no part of the first argument, and the tag in the second
argument comes before the section tag. -/
theorem events_addition :
    Comment.events "/** Adds \x7b@code a {b}\n * c\x7d.\n * @return the {@b}sum\n */" =
      [.enter 0, .commentText "/** Adds ", .tag 0 "code" "a {b}\n  c", .commentText ".\n * ",
        .tag 2 "b" [], .tag 2 "return" "the sum", .commentText "\n */", .exit] := by
  have text : addition.text =
      "/** Adds \x7b@code a {b}\n * c\x7d.\n * @return the {@b}sum\n */" := by decide +kernel
  rw [← text, (events_written addition addition_valid).1]
  decide +kernel

end DocAudit.Comment.Written
