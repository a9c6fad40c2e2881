import DocAudit.Comment.Token

/-!
The events of a text with documentation comments: plain text, the start and end of a comment, the
text inside it and its tags. A section tag `@name argument` runs to the end of its line, an inline
tag runs to its matching brace, and either may be cut short by the end of the comment.
-/

set_option autoImplicit false

namespace DocAudit.Comment

/-- What a reader of comments meets, in order. -/
inductive Event where
  /-- Text outside of any documentation comment. -/
  | text (text : Text)
  /-- The start of a comment, after `line` line feeds. -/
  | enter (line : Nat)
  /-- Text inside a comment that belongs to no tag. -/
  | commentText (text : Text)
  /-- A section tag or an inline tag whose at sign follows `line` line feeds. -/
  | tag (line : Nat) (name argument : Text)
  /-- The end of a comment. -/
  | exit
deriving DecidableEq

/-- A tag whose argument is still being read. -/
structure OpenTag where
  line : Nat
  name : Option Text := none
  argument : Text := []
deriving DecidableEq

namespace OpenTag

/-- The event of the tag as read so far. -/
def event (tag : OpenTag) : Event :=
  .tag tag.line (tag.name.getD []) tag.argument

/-- The tag with one more token in its argument. -/
def append (tag : OpenTag) (token : Token) : OpenTag :=
  { tag with argument := tag.argument ++ token.text }

/-- The tag with one more token in its argument, unless that is leading white space. -/
def appendTrimmed (tag : OpenTag) (token : Token) : OpenTag :=
  if tag.argument.isEmpty && token.isBlank then tag else tag.append token

/-- Whether the token is the name that the tag still lacks. -/
def lacks (tag : OpenTag) (token : Token) : Bool :=
  tag.name.isNone && !token.isBlank

/-- The tag with the token as its name. -/
def named (tag : OpenTag) (token : Token) : OpenTag :=
  { tag with name := some token.text }

end OpenTag

/-- Where a reader stands, with what it has read there and not yet reported. -/
inductive Place where
  /-- Outside of any comment, after text that is not yet reported. -/
  | outside (pending : Text)
  /-- Inside a comment, after text that is not yet reported. -/
  | comment (pending : Text)
  /-- Inside a section tag. -/
  | sectionTag (tag : OpenTag)
  /-- Inside an inline tag, below `depth` open braces, within a section tag or directly within the
  comment. -/
  | inlineTag (tag : OpenTag) (depth : Nat) (around : Option OpenTag)

namespace Event

/-- Text outside of comments, reported unless it is empty. -/
def plain (pending : Text) : List Event :=
  if pending.isEmpty then [] else [.text pending]

/-- Text inside a comment, reported unless it is empty. -/
def inComment (pending : Text) : List Event :=
  if pending.isEmpty then [] else [.commentText pending]

/-- The end of a comment after text that is not yet reported. -/
def close (pending : Text) : List Event :=
  inComment pending ++ [.exit]

end Event

namespace Token

/-- Whether the token starts a documentation comment. -/
def opensComment (t : Token) : Bool :=
  t.text.startsWith "/**" && t.text != ("/**/" : Text)

/-- Whether the token ends a comment. -/
def closesComment (t : Token) : Bool :=
  t.text.endsWith "*/"

/-- Whether a token that starts a comment also ends it, as in `/**text*/`. -/
def isWholeComment (t : Token) : Bool :=
  4 < t.text.length && t.closesComment

/-- The continuation star of a comment line. -/
def isStar (t : Token) : Bool :=
  t.text == ['*']

end Token

namespace Place

/-- The events that remain when the text ends. -/
def finish : Place → List Event
  | outside pending => Event.plain pending
  | comment pending => Event.close pending
  | sectionTag tag => tag.event :: Event.close []
  | inlineTag tag _ none => tag.event :: Event.close []
  | inlineTag tag _ (some around) => tag.event :: around.event :: Event.close []

/-- A token outside of comments: the events it completes and the place after it. -/
def stepOutside (pending : Text) (t : Token) : List Event × Place :=
  if t.opensComment then
    if t.isWholeComment then
      (Event.plain pending ++ [.enter t.line, .commentText t.text, .exit], outside [])
    else (Event.plain pending ++ [.enter t.line], comment t.text)
  else ([], outside (pending ++ t.text))

/-- A token directly inside a comment. An opening brace comes with the knowledge whether an at
sign follows, in which case the at sign is read too. -/
def stepComment (pending : Text) (t : Token) : List Event × Place :=
  if t.closesComment then (Event.close (pending ++ t.text), outside [])
  else if t.isMarker '@' then (Event.inComment pending, sectionTag { line := t.line })
  else ([], comment (pending ++ t.text))

/-- A token inside a section tag that does not open an inline tag. The first token that is not
white space is the name, whatever it is; afterwards a line feed or the end of the comment ends the
tag. -/
def stepSection (tag : OpenTag) (t : Token) : List Event × Place :=
  if tag.lacks t then ([], sectionTag (tag.named t))
  else if t.spansLines then
    if t.isBlank then ([tag.event], comment t.text) else ([(tag.append t).event], comment [])
  else if t.closesComment then (tag.event :: Event.close t.text, outside [])
  else ([], sectionTag (tag.appendTrimmed t))

/-- A token inside an inline tag. The end of the comment ends the tag and counts again for
whatever the tag stands in. -/
def stepInline (tag : OpenTag) (depth : Nat) (around : Option OpenTag) (t : Token) :
    List Event × Place :=
  let leave : Place := (around.map sectionTag).getD (comment [])
  if t.isStar then ([], inlineTag tag depth around)
  else if t.closesComment then
    let (events, place) := (around.map fun s => stepSection s t).getD (stepComment [] t)
    (tag.event :: events, place)
  else if tag.lacks t then ([], inlineTag (tag.named t) depth around)
  else if t.isMarker '{' then ([], inlineTag (tag.appendTrimmed t) (depth + 1) around)
  else if t.isMarker '}' then
    match depth with
    | 0 => ([tag.event], leave)
    | depth + 1 => ([], inlineTag (tag.appendTrimmed t) depth around)
  else ([], inlineTag (tag.appendTrimmed t) depth around)

/-- The events that one token completes, and the place after it. -/
def step : Place → Token → List Event × Place
  | outside pending, t => stepOutside pending t
  | comment pending, t => stepComment pending t
  | sectionTag tag, t => stepSection tag t
  | inlineTag tag depth around, t => stepInline tag depth around t

/-- The inline tag that an opening brace and the at sign after it start here, with the events that
come before it; `none` where a brace is an ordinary token. -/
def openInline? (place : Place) (brace atSign : Token) : Option (List Event × Place) :=
  if brace.isMarker '{' && atSign.isMarker '@' then
    match place with
    | comment pending =>
      some (Event.inComment pending, inlineTag { line := atSign.line } 0 none)
    | sectionTag tag =>
      if tag.name.isSome then some ([], inlineTag { line := atSign.line } 0 (some tag)) else none
    | _ => none
  else none

/-- The events of the tokens met from a place on. -/
def events (place : Place) : List Token → List Event
  | [] => place.finish
  | [t] => let (now, next) := place.step t; now ++ next.finish
  | t :: u :: rest =>
    match place.openInline? t u with
    | some (now, next) => now ++ events next rest
    | none => let (now, next) := place.step t; now ++ events next (u :: rest)

end Place

/-- The events of a text. -/
def events (text : Text) : List Event :=
  (Place.outside []).events (Token.scan text)

end DocAudit.Comment
