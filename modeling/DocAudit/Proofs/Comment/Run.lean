import DocAudit.Proofs.Comment.Place
import DocAudit.Proofs.Comment.Scan
import Mathlib.Tactic.SplitIfs

/-!
How a reader goes over several tokens that keep it in one place: text of a comment, the argument of
a section tag, and the argument of an inline tag with its braces.
-/

set_option autoImplicit false

namespace DocAudit

/-- The number of braces that are open after a text, when `depth` were open before it; nothing if
a closing brace matches none. -/
def Text.depthAfter? (depth : Nat) : Text → Option Nat
  | [] => some depth
  | c :: rest =>
    if c = '{' then depthAfter? (depth + 1) rest
    else if c = '}' then if depth = 0 then none else depthAfter? (depth - 1) rest
    else depthAfter? depth rest

theorem Text.depthAfter?_append {depth between : Nat} {t rest : Text}
    (first : depthAfter? depth t = some between) :
    depthAfter? depth (t ++ rest) = depthAfter? between rest := by
  induction t generalizing depth with
  | nil =>
    obtain rfl := Option.some.inj first
    rfl
  | cons c t ih =>
    rw [depthAfter?] at first
    rw [List.cons_append, depthAfter?]
    split_ifs at first ⊢
    · exact ih first
    · exact ih first
    · exact ih first

theorem Text.exists_depthAfter? {depth depth' : Nat} {t rest : Text}
    (whole : depthAfter? depth (t ++ rest) = some depth') :
    ∃ between, depthAfter? depth t = some between := by
  induction t generalizing depth with
  | nil => exact ⟨depth, rfl⟩
  | cons c t ih =>
    rw [List.cons_append, depthAfter?] at whole
    rw [depthAfter?]
    split_ifs at whole ⊢
    · exact ih whole
    · exact ih whole
    · exact ih whole

theorem Text.depthAfter?_of_no_brace (depth : Nat) {t : Text}
    (plain : ∀ c ∈ t, c ≠ '{' ∧ c ≠ '}') : depthAfter? depth t = some depth := by
  induction t with
  | nil => rfl
  | cons c t ih =>
    obtain ⟨first, others⟩ := List.forall_mem_cons.mp plain
    rw [depthAfter?, if_neg first.1, if_neg first.2]
    exact ih others

namespace Comment

namespace Token

/-- Whether a token in a comment neither starts a tag nor ends the comment. -/
structure IsOrdinary (t : Token) : Prop where
  notMarker : t.kind ≠ .marker
  open_ : ¬ t.closesComment

/-- The text of some tokens but for those that are a star alone. -/
def joinWithoutStars (tokens : List Token) : Text :=
  join (tokens.filter fun t => !t.isStar)

@[simp] theorem joinWithoutStars_append (tokens more : List Token) :
    joinWithoutStars (tokens ++ more) = joinWithoutStars tokens ++ joinWithoutStars more := by
  simp [joinWithoutStars]

theorem isMarker_of_kind_ne {t : Token} (notMarker : t.kind ≠ .marker) (c : Char) :
    t.isMarker c = false := by
  rw [isMarker, beq_false_of_ne notMarker, Bool.false_and]

/-- White space is trimmed away, and no other token starts with it. -/
theorem Proper.trimLeft_text {t : Token} (proper : t.Proper) :
    Text.trimLeft t.text = if t.isBlank then [] else t.text := by
  split_ifs with blank
  · exact List.dropWhile_eq_nil_iff.mpr (proper.blank blank)
  · obtain ⟨first, tail, text⟩ := List.exists_cons_of_ne_nil proper.text_ne_nil
    have visible : Text.isBlank first = false := by
      cases kind : t.kind with
      | blank => exact absurd (beq_iff_eq.mpr kind) blank
      | quoted =>
        have quote := proper.quoted kind
        rw [text] at quote
        obtain rfl := Option.some.inj quote
        decide
      | marker =>
        obtain ⟨c, single, marker⟩ := proper.marker kind
        obtain ⟨rfl, -⟩ := List.cons.inj (text.symm.trans single)
        exact not_isBlank_of_isMarkerChar marker
      | word =>
        have inside := proper.word kind first (by rw [text]; exact List.mem_cons_self)
        simp only [Bool.not_eq_true', Bool.or_eq_false_iff] at inside
        exact inside.1
    rw [Text.trimLeft, text, List.dropWhile_cons_of_neg (by simp [visible])]

end Token

namespace OpenTag

/-- The tag with more text in its argument, which starts with no white space. -/
def extend (tag : OpenTag) (text : Text) : OpenTag :=
  { tag with argument := if tag.argument.isEmpty then text.trimLeft else tag.argument ++ text }

@[simp] theorem extend_nil (tag : OpenTag) : tag.extend [] = tag := by
  obtain ⟨line, name, argument⟩ := tag
  cases argument <;> simp [extend, Text.trimLeft]

@[simp] theorem name_extend (tag : OpenTag) (text : Text) : (tag.extend text).name = tag.name := rfl

theorem extend_extend (tag : OpenTag) (text more : Text) :
    (tag.extend text).extend more = tag.extend (text ++ more) := by
  obtain ⟨line, name, argument⟩ := tag
  cases argument with
  | nil => simp [extend, Text.trimLeft_append]
  | cons c argument => simp [extend]

/-- A token is appended like its text. -/
theorem appendTrimmed_eq_extend (tag : OpenTag) {t : Token} (proper : t.Proper) :
    tag.appendTrimmed t = tag.extend t.text := by
  obtain ⟨line, name, argument⟩ := tag
  cases argument with
  | nil =>
    by_cases blank : t.isBlank
    · simp [appendTrimmed, extend, proper.trimLeft_text, blank]
    · simp [appendTrimmed, append, extend, proper.trimLeft_text, blank]
  | cons c argument => simp [appendTrimmed, append, extend]

end OpenTag

namespace Place

variable {tokens rest : List Token}

@[simp] theorem openInline?_inlineTag (tag : OpenTag) (depth : Nat) (around : Option OpenTag)
    (brace atSign : Token) : (inlineTag tag depth around).openInline? brace atSign = none := by
  simp [openInline?]

theorem openInline?_of_not_marker (place : Place) {t : Token} (notMarker : t.kind ≠ .marker)
    (atSign : Token) : place.openInline? t atSign = none := by
  simp [openInline?, Token.isMarker_of_kind_ne notMarker]

/-- Ordinary tokens in a comment are read as its text. -/
theorem events_comment_append (pending : Text) (ordinary : ∀ t ∈ tokens, t.IsOrdinary) :
    (comment pending).events (tokens ++ rest) =
      (comment (pending ++ Token.join tokens)).events rest := by
  induction tokens generalizing pending with
  | nil => simp
  | cons t tokens ih =>
    obtain ⟨⟨notMarker, open_⟩, others⟩ := List.forall_mem_cons.mp ordinary
    have step : (comment pending).step t = ([], comment (pending ++ t.text)) := by
      simp [Place.step, stepComment, open_, Token.isMarker_of_kind_ne notMarker]
    rw [List.cons_append, events_cons fun u _ => openInline?_of_not_marker _ notMarker u, step,
      List.nil_append, ih _ others, Token.join_cons, List.append_assoc]

/-- Ordinary tokens within the line of a section tag are read as its argument. -/
theorem events_sectionTag_append (tag : OpenTag) (named : tag.name.isSome)
    (proper : ∀ t ∈ tokens, t.Proper) (ordinary : ∀ t ∈ tokens, t.IsOrdinary)
    (inLine : ∀ t ∈ tokens, ¬ t.spansLines) :
    (sectionTag tag).events (tokens ++ rest) =
      (sectionTag (tag.extend (Token.join tokens))).events rest := by
  induction tokens generalizing tag with
  | nil => simp
  | cons t tokens ih =>
    obtain ⟨⟨notMarker, open_⟩, ordinary⟩ := List.forall_mem_cons.mp ordinary
    obtain ⟨properHead, proper⟩ := List.forall_mem_cons.mp proper
    obtain ⟨noBreak, inLine⟩ := List.forall_mem_cons.mp inLine
    have step : (sectionTag tag).step t = ([], sectionTag (tag.extend t.text)) := by
      have lacks : tag.lacks t = false := by
        obtain ⟨name, isName⟩ := Option.isSome_iff_exists.mp named
        simp [OpenTag.lacks, isName]
      simp [Place.step, stepSection, lacks, noBreak, open_,
        OpenTag.appendTrimmed_eq_extend tag properHead]
    rw [List.cons_append, events_cons fun u _ => openInline?_of_not_marker _ notMarker u, step,
      List.nil_append, ih (tag.extend t.text) named proper ordinary inLine,
      OpenTag.extend_extend, Token.join_cons]

private theorem step_inlineTag (tag : OpenTag) (named : tag.name.isSome) (around : Option OpenTag)
    {depth depth' : Nat} {t : Token} (proper : t.Proper) (unquoted : '"' ∉ t.text)
    (open_ : ¬ t.closesComment) (depths : Text.depthAfter? depth t.text = some depth') :
    (inlineTag tag depth around).step t =
      ([], inlineTag (tag.extend (Token.joinWithoutStars [t])) depth' around) := by
  have lacks : tag.lacks t = false := by
    obtain ⟨name, isName⟩ := Option.isSome_iff_exists.mp named
    simp [OpenTag.lacks, isName]
  have extend := OpenTag.appendTrimmed_eq_extend tag proper
  by_cases star : t.isStar
  · have same : depth' = depth := by
      rw [beq_iff_eq.mp star] at depths
      exact (Option.some.inj depths).symm
    have noText : Token.joinWithoutStars [t] = [] := by simp [Token.joinWithoutStars, star]
    rw [noText, OpenTag.extend_nil, same]
    simp [Place.step, stepInline, star]
  · have ownText : Token.joinWithoutStars [t] = t.text := by simp [Token.joinWithoutStars, star]
    simp only [ownText, Place.step, stepInline, star, open_, lacks, extend, Bool.false_eq_true,
      if_false]
    by_cases marker : t.kind = .marker
    · obtain ⟨c, text, -⟩ := proper.marker marker
      rw [text, Text.depthAfter?] at depths
      simp only [Token.isMarker, marker, text, beq_self_eq_true, Bool.true_and, beq_iff_eq,
        List.cons.injEq, and_true]
      split_ifs at depths ⊢ with opening closing none
      · exact congrArg (fun d => ([], inlineTag _ d around)) (Option.some.inj depths)
      · obtain ⟨below, rfl⟩ := Nat.exists_eq_succ_of_ne_zero none
        exact congrArg (fun d => ([], inlineTag _ d around)) (Option.some.inj depths)
      · exact congrArg (fun d => ([], inlineTag _ d around)) (Option.some.inj depths)
    · have noBrace : ∀ c ∈ t.text, c ≠ '{' ∧ c ≠ '}' := by
        intro c member
        have plain := proper.isMarkerChar_eq_false unquoted marker c member
        constructor
        · rintro rfl
          exact absurd plain (by decide)
        · rintro rfl
          exact absurd plain (by decide)
      have same : depth = depth' :=
        Option.some.inj ((Text.depthAfter?_of_no_brace depth noBrace).symm.trans depths)
      simp only [Token.isMarker_of_kind_ne marker, Bool.false_eq_true, if_false, same]

/-- Tokens with balanced braces in an inline tag are read as its argument. -/
theorem events_inlineTag_append (tag : OpenTag) (named : tag.name.isSome)
    (around : Option OpenTag) {depth depth' : Nat} (proper : ∀ t ∈ tokens, t.Proper)
    (unquoted : '"' ∉ Token.join tokens) (open_ : ∀ t ∈ tokens, ¬ t.closesComment)
    (depths : Text.depthAfter? depth (Token.join tokens) = some depth') :
    (inlineTag tag depth around).events (tokens ++ rest) =
      (inlineTag (tag.extend (Token.joinWithoutStars tokens)) depth' around).events rest := by
  induction tokens generalizing tag depth with
  | nil =>
    obtain rfl := Option.some.inj depths
    simp [Token.joinWithoutStars]
  | cons t tokens ih =>
    obtain ⟨openHead, open_⟩ := List.forall_mem_cons.mp open_
    obtain ⟨properHead, proper⟩ := List.forall_mem_cons.mp proper
    rw [Token.join_cons, List.mem_append, not_or] at unquoted
    rw [Token.join_cons] at depths
    obtain ⟨between, first⟩ := Text.exists_depthAfter? depths
    rw [Text.depthAfter?_append first] at depths
    have step := step_inlineTag tag named around properHead unquoted.1 openHead first
    have later := ih (tag.extend (Token.joinWithoutStars [t])) named proper unquoted.2 open_ depths
    rw [OpenTag.extend_extend, ← Token.joinWithoutStars_append] at later
    rw [List.cons_append, events_cons fun u _ => openInline?_inlineTag _ _ _ t u, step,
      List.nil_append]
    exact later

end Place

end Comment

end DocAudit
