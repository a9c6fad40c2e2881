import DocAudit.Proofs.Comment.Run

/-!
Comments as an author writes them: a description with inline tags, then section tags, each with an
argument on its line and more description below, and the events that a reader has to find.
-/

set_option autoImplicit false

namespace DocAudit.Comment.Written

/-- Text without braces, at signs and quotes. -/
def IsFree (text : Text) : Prop :=
  ∀ c ∈ text, Token.isMarkerChar c = false ∧ c ≠ '"'

instance (text : Text) : Decidable (IsFree text) :=
  List.decidableBAll _ text

/-- The name of a tag. -/
structure IsName (name : Text) : Prop where
  ne_nil : name ≠ []
  free : IsFree name
  solid : name.any Text.isBlank = false
  ne_star : name ≠ ['*']

/-- An inline tag. The gap sets off its body, if it has one. -/
structure InlineTag where
  name : Text
  gap : Text
  body : Text

namespace InlineTag

/-- The tag as written. -/
def text (tag : InlineTag) : Text :=
  '{' :: '@' :: (tag.name ++ (tag.gap ++ tag.body) ++ ['}'])

/-- The body without stars that stand alone and without white space before the rest. -/
def argument (tag : InlineTag) : Text :=
  Text.trimLeft (Token.joinWithoutStars (Token.scan tag.body))

/-- The event of the tag. -/
def event (line : Nat) (tag : InlineTag) : Event :=
  .tag line tag.name tag.argument

/-- The body has its own braces in balance. -/
structure Valid (tag : InlineTag) : Prop where
  name : IsName tag.name
  gap : tag.gap.isAllBlank
  body_eq_nil : tag.gap = [] → tag.body = []
  unquoted : '"' ∉ tag.body
  balanced : Text.depthAfter? 0 tag.body = some 0

end InlineTag

/-- Free text with inline tags in between, each after a part of the text that may be empty. -/
structure Mix where
  inlines : List (Text × InlineTag)
  last : Text

namespace Mix

/-- The parts of the text with the inline tags after them, as written. -/
def inlinesText (inlines : List (Text × InlineTag)) : Text :=
  inlines.flatMap fun part => part.1 ++ part.2.text

/-- Text and inline tags as written. -/
def text (m : Mix) : Text :=
  inlinesText m.inlines ++ m.last

/-- The text without the inline tags. -/
def free (m : Mix) : Text :=
  m.inlines.flatMap Prod.fst ++ m.last

/-- The name and argument of each inline tag. -/
def tags (m : Mix) : List (Text × Text) :=
  m.inlines.map fun part => (part.2.name, part.2.argument)

/-- The mix after some more text. -/
def prepend (more : Text) (m : Mix) : Mix :=
  match m.inlines with
  | [] => ⟨[], more ++ m.last⟩
  | (first, tag) :: rest => ⟨(more ++ first, tag) :: rest, m.last⟩

/-- The events of inline tags where the text between them goes elsewhere. -/
def inlineEvents (line : Nat) : List (Text × InlineTag) → List Event
  | [] => []
  | (first, tag) :: rest =>
    tag.event (line + first.lineFeeds) ::
      inlineEvents (line + Text.lineFeeds (first ++ tag.text)) rest

/-- The events of inline tags with the text before each. -/
def descriptionEvents (line : Nat) : List (Text × InlineTag) → List Event
  | [] => []
  | (first, tag) :: rest =>
    Event.inComment first ++ tag.event (line + first.lineFeeds) ::
      descriptionEvents (line + Text.lineFeeds (first ++ tag.text)) rest

/-- Only the inline tags have braces, at signs and quotes. -/
structure Valid (m : Mix) : Prop where
  free : IsFree m.free
  inlines : ∀ part ∈ m.inlines, part.2.Valid

end Mix

/-- A section tag with the description below it. -/
structure SectionTag where
  name : Text
  argument : Mix
  description : Mix

namespace SectionTag

/-- The line of the tag as written. -/
def line (tag : SectionTag) : Text :=
  '@' :: (tag.name ++ ' ' :: tag.argument.text)

/-- The tag and the description below it as written. -/
def text (tag : SectionTag) : Text :=
  tag.line ++ '\n' :: tag.description.text

/-- The events of the inline tags in the argument, then that of the tag. -/
def events (line : Nat) (tag : SectionTag) : List Event :=
  Mix.inlineEvents line tag.argument.inlines ++
    [.tag line tag.name (Text.trimLeft tag.argument.free)]

/-- The name and argument of each tag in the line and in the description below it. -/
def tags (tag : SectionTag) : List (Text × Text) :=
  tag.argument.tags ++ [(tag.name, Text.trimLeft tag.argument.free)] ++ tag.description.tags

/-- The argument is there, ends with no white space, and keeps to its line but for what stands in
inline tags. -/
structure Valid (tag : SectionTag) : Prop where
  name : IsName tag.name
  argument : tag.argument.Valid
  argument_ne_nil : tag.argument.text ≠ []
  argument_ends : ∀ c ∈ tag.argument.text.getLast?, Text.isBlank c = false
  argument_inLine : '\n' ∉ tag.argument.free
  description : tag.description.Valid

end SectionTag

/-- The events of a description and of the section tags after it, up to the end of the comment. -/
def eventsFrom (line : Nat) (description : Mix) : List SectionTag → List Event
  | [] =>
    Mix.descriptionEvents line description.inlines ++
      Event.inComment (description.last ++ ("*/" : Text))
  | tag :: rest =>
    let line' := line + Text.lineFeeds description.text
    Mix.descriptionEvents line description.inlines ++ Event.inComment description.last ++
      tag.events line' ++
      eventsFrom (line' + Text.lineFeeds tag.line) (tag.description.prepend "\n") rest

end Written

/-- A comment as written, without its marks at the start and the end. -/
structure Written where
  description : Written.Mix
  sections : List Written.SectionTag

namespace Written

/-- The comment as written up to the mark at its end. -/
def opened (w : Written) : Text :=
  "/**" ++ w.description.text ++ w.sections.flatMap SectionTag.text

/-- The comment as written. -/
def text (w : Written) : Text :=
  w.opened ++ "*/"

/-- The events of the comment. -/
def events (w : Written) : List Event :=
  .enter 0 :: (eventsFrom 0 (w.description.prepend "/**") w.sections ++ [.exit])

/-- The name and argument of each tag. A section tag follows the inline tags of its argument. -/
def tags (w : Written) : List (Text × Text) :=
  w.description.tags ++ w.sections.flatMap SectionTag.tags

/-- The description starts with white space, and only the end of the comment looks like it. -/
structure Valid (w : Written) : Prop where
  description : w.description.Valid
  starts : ∃ c ∈ w.description.text.head?, Text.isBlank c
  sections : ∀ tag ∈ w.sections, tag.Valid
  closed_once : ¬ ("*/" : Text) <:+: w.opened

end Written

end DocAudit.Comment
