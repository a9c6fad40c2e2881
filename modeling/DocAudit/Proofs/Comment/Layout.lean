import DocAudit.Comment.Event
import DocAudit.Proofs.Comment.Scan

/-!
Where the tokens of a text go. A layout keeps all tokens in source order and says of each one which
event takes its text, or which tag drops it.
-/

set_option autoImplicit false

namespace DocAudit.Comment

/-- What becomes of a token inside a tag. -/
inductive Use where
  /-- It is the name of the tag. -/
  | name
  /-- Its text belongs to the argument of the tag. -/
  | argument
  /-- It belongs to no event. -/
  | dropped
deriving DecidableEq

/-- The text of those tokens in a tag that have this use. -/
def Use.text (use : Use) (body : List (Use × Token)) : Text :=
  Token.join ((body.filter (·.1 = use)).map Prod.snd)

@[simp] theorem Use.text_nil (use : Use) : use.text [] = [] := rfl

@[simp] theorem Use.text_cons (use used : Use) (t : Token) (body : List (Use × Token)) :
    use.text ((used, t) :: body) = (if used = use then t.text else []) ++ use.text body := by
  by_cases same : used = use <;> simp [Use.text, same]

/-- The tokens of an inline tag. Without a closing brace it runs to the end of its comment. -/
structure InlineTag where
  brace : Token
  atSign : Token
  body : List (Use × Token)
  closing : Option Token

namespace InlineTag

/-- All tokens of the tag in source order. -/
def tokens (tag : InlineTag) : List Token :=
  tag.brace :: tag.atSign :: (tag.body.map Prod.snd ++ tag.closing.toList)

/-- The event of the tag. -/
def event (tag : InlineTag) : Event :=
  .tag tag.atSign.line (Use.name.text tag.body) (Use.argument.text tag.body)

/-- How many braces are open after a token, of which `depth` were open before it. -/
inductive Nests (t : Token) : Nat → Nat → Prop where
  | opened {depth : Nat} : t.isMarker '{' → Nests t depth (depth + 1)
  | closed {depth : Nat} : t.isMarker '}' → Nests t (depth + 1) depth
  | neither {depth : Nat} : ¬ t.isMarker '{' → ¬ t.isMarker '}' → Nests t depth depth

/-- How an inline tag goes on, which has its name or lacks it, has this argument so far and stands
below `depth` open braces. Only stars and white space before the argument are dropped, and the
closing brace is the first one that matches no brace of the argument. -/
inductive Goes : (named : Bool) → (argument : Text) → (depth : Nat) → List (Use × Token) →
    (closing : Option Token) → Prop where
  | cut {named : Bool} {argument : Text} {depth : Nat} : Goes named argument depth [] none
  | closed {argument : Text} {c : Token} : c.isMarker '}' → Goes true argument 0 [] (some c)
  | star {named : Bool} {argument : Text} {depth : Nat} {t : Token} {rest : List (Use × Token)}
      {closing : Option Token} :
      t.isStar → Goes named argument depth rest closing →
      Goes named argument depth ((.dropped, t) :: rest) closing
  | blank {named : Bool} {depth : Nat} {t : Token} {rest : List (Use × Token)}
      {closing : Option Token} :
      t.isBlank → Goes named [] depth rest closing →
      Goes named [] depth ((.dropped, t) :: rest) closing
  | name {depth : Nat} {t : Token} {rest : List (Use × Token)} {closing : Option Token} :
      ¬ t.isStar → ¬ t.isBlank → Goes true [] depth rest closing →
      Goes false [] depth ((.name, t) :: rest) closing
  | argument {argument : Text} {depth depth' : Nat} {t : Token} {rest : List (Use × Token)}
      {closing : Option Token} :
      ¬ t.isStar → (t.isBlank → argument ≠ []) → Nests t depth depth' →
      Goes true (argument ++ t.text) depth' rest closing →
      Goes true argument depth ((.argument, t) :: rest) closing

/-- Whether each token of the tag stands where its use allows. -/
structure Sound (tag : InlineTag) : Prop where
  brace : tag.brace.isMarker '{'
  atSign : tag.atSign.isMarker '@'
  body : Goes false [] 0 tag.body tag.closing

end InlineTag

/-- What stands inside a section tag. -/
inductive SectionPart where
  | token (use : Use) (t : Token)
  | inlineTag (tag : InlineTag)

namespace SectionPart

/-- The tokens of the part. -/
def tokens : SectionPart → List Token
  | token _ t => [t]
  | inlineTag tag => tag.tokens

/-- The events of the part, which come before that of its section tag. -/
def events : SectionPart → List Event
  | token _ _ => []
  | inlineTag tag => [tag.event]

/-- The token of the part that is not inside an inline tag. -/
def own? : SectionPart → Option (Use × Token)
  | token use t => some (use, t)
  | inlineTag _ => none

end SectionPart

/-- The tokens of a section tag. -/
structure SectionTag where
  atSign : Token
  body : List SectionPart

namespace SectionTag

/-- All tokens of the tag in source order. -/
def tokens (tag : SectionTag) : List Token :=
  tag.atSign :: tag.body.flatMap SectionPart.tokens

/-- The events of the inline tags inside, then the event of the tag itself. -/
def events (tag : SectionTag) : List Event :=
  let own := tag.body.filterMap SectionPart.own?
  tag.body.flatMap SectionPart.events ++
    [.tag tag.atSign.line (Use.name.text own) (Use.argument.text own)]

/-- How a section tag goes on, which has its name or lacks it and has this argument so far. Only
white space within a line and before the argument is dropped. -/
inductive Goes : (named : Bool) → (argument : Text) → List SectionPart → Prop where
  | done {named : Bool} {argument : Text} : Goes named argument []
  | blank {named : Bool} {t : Token} {rest : List SectionPart} :
      t.isBlank → ¬ t.spansLines → Goes named [] rest →
      Goes named [] (.token .dropped t :: rest)
  | name {t : Token} {rest : List SectionPart} :
      ¬ t.isBlank → Goes true [] rest → Goes false [] (.token .name t :: rest)
  | argument {argument : Text} {t : Token} {rest : List SectionPart} :
      (t.isBlank → argument ≠ []) → Goes true (argument ++ t.text) rest →
      Goes true argument (.token .argument t :: rest)
  | inlineTag {argument : Text} {tag : InlineTag} {rest : List SectionPart} :
      tag.Sound → Goes true argument rest → Goes true argument (.inlineTag tag :: rest)

/-- Whether each token of the tag stands where its use allows. -/
structure Sound (tag : SectionTag) : Prop where
  atSign : tag.atSign.isMarker '@'
  body : Goes false [] tag.body

end SectionTag

/-- What stands inside a comment. -/
inductive Piece where
  | text (tokens : List Token)
  | inlineTag (tag : InlineTag)
  | sectionTag (tag : SectionTag)

namespace Piece

/-- The tokens of the piece. -/
def tokens : Piece → List Token
  | text tokens => tokens
  | inlineTag tag => tag.tokens
  | sectionTag tag => tag.tokens

/-- The events of the piece. -/
def events : Piece → List Event
  | text tokens => [.commentText (Token.join tokens)]
  | inlineTag tag => [tag.event]
  | sectionTag tag => tag.events

/-- Whether the piece is what it says. -/
def Sound : Piece → Prop
  | text tokens => tokens ≠ []
  | inlineTag tag => tag.Sound
  | sectionTag tag => tag.Sound

end Piece

/-- A stretch of a text: plain text, or a comment that starts with the token `opening`. -/
inductive Stretch where
  | text (tokens : List Token)
  | comment (opening : Token) (pieces : List Piece)

namespace Stretch

/-- The tokens of the stretch. -/
def tokens : Stretch → List Token
  | text tokens => tokens
  | comment _ pieces => pieces.flatMap Piece.tokens

/-- The events of the stretch. -/
def events : Stretch → List Event
  | text tokens => [.text (Token.join tokens)]
  | comment opening pieces => .enter opening.line :: (pieces.flatMap Piece.events ++ [.exit])

/-- Whether the stretch is what it says. A comment starts with text, of which `opening` is the
first token. -/
def Sound : Stretch → Prop
  | text tokens => tokens ≠ [] ∧ ∀ t ∈ tokens, ¬ t.opensComment
  | comment opening pieces =>
    opening.opensComment ∧ (∃ lead rest, pieces = .text (opening :: lead) :: rest) ∧
      ∀ piece ∈ pieces, piece.Sound

end Stretch

end DocAudit.Comment
