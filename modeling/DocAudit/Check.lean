import DocAudit.Check.Tag
import DocAudit.Comment.Event

/-!
The check of one declaration's comment: its tags one by one, and at the end of the comment whether
anything is left undocumented. Lines are counted from the start of the comment.
-/

set_option autoImplicit false

namespace DocAudit.Check

open Comment (Event)

/-- A violation with the number of line feeds before it in its comment. -/
structure Finding where
  line : Nat
  violation : Violation
deriving DecidableEq

/-- The characters of a text that count towards the length of a comment. -/
def realCharacters (text : Text) : Nat :=
  text.countP fun c => !(Text.isBlank c || c == '/' || c == '*')

/-- Whether the tag says that documentation is inherited. -/
def isInheritDoc (name : Text) : Bool :=
  name == "inheritDoc"

namespace Subject

/-- Whether the comment of this declaration is checked at all: not on annotation types, and on
methods and fields only where other packages can see them. -/
def isChecked (s : Subject) : Bool :=
  match s.kind with
  | .annotationType => false
  | .field | .method => s.declaration.visibility.isExposed
  | _ => true

/-- The characters that an event adds to the length of the comment. -/
def length (s : Subject) : Event → Nat
  | .commentText text => realCharacters text
  | .tag _ name argument => if (judge s name argument).counts then realCharacters argument else 0
  | _ => 0

/-- What an event documents. -/
def documents (s : Subject) : Event → Option Documented
  | .tag _ name argument => (judge s name argument).documents
  | _ => none

/-- What is wrong with an event by itself. -/
def judgeEvent (s : Subject) : Event → List Finding
  | .tag line name argument => (judge s name argument).violation.toList.map (⟨line, ·⟩)
  | _ => []

/-- Where documentation is inherited without right. -/
def judgeInheritance (s : Subject) : Event → List Finding
  | .tag line name _ =>
    if isInheritDoc name then (judgeInheritDoc s).toList.map (⟨line, ·⟩) else []
  | _ => []

/-- What a comment leaves out, when `seen` are its events. -/
def omissions (s : Subject) (seen : List Event) : List Violation :=
  let length := (seen.map s.length).foldr Nat.add 0
  let documented := seen.filterMap s.documents
  (if length < s.settings.minimumLength then
    [.commentTooShort s.settings.minimumLength length] else []) ++
  (if s.kind = .method && !s.declaration.isVoidMethod && !documented.contains .result then
    [.missingReturn] else []) ++
  ((s.parameterNames.filter fun name => !documented.contains (.parameter name)).map
    .undocumentedParameter) ++
  ((s.throws.1.filter fun ty => !documented.contains (.exception ty)).map
    fun ty => .undocumentedException ty.canonicalName)

end Subject

/-- The line on which the last comment among the events starts. -/
def startLine (seen : List Event) : Nat :=
  seen.foldl (fun line e => match e with | .enter line => line | _ => line) 0

/-- Whether any of the events says that documentation is inherited. -/
def inherits (events : List Event) : Bool :=
  events.any fun
    | .tag _ name _ => isInheritDoc name
    | _ => false

namespace Subject

/-- What is wrong with the events that follow those already seen. At the end of a comment comes
what it leaves out, if it has to be complete. -/
def judgeEvents (s : Subject) (complete : Bool) (seen : List Event) : List Event → List Finding
  | [] => []
  | e :: rest =>
    let found :=
      if e = .exit && complete then (s.omissions seen).map (⟨startLine seen, ·⟩)
      else s.judgeEvent e
    found ++ s.judgeEvents complete (seen ++ [e]) rest

/-- What is wrong with a comment. Inherited documentation need not be complete. -/
def judgeComment (s : Subject) (comment : Text) : List Finding :=
  let events := Comment.events comment
  let complete := !inherits events && !s.isOverride
  s.throws.2.toList.map (⟨0, .unresolvedException ·⟩) ++
    events.flatMap s.judgeInheritance ++
    s.judgeEvents complete [] events

/-- What is wrong with the comment of a declaration; nothing if it has none. -/
def findings (s : Subject) : List Finding :=
  match s.declaration.comment with
  | none => []
  | some comment => if s.isChecked then s.judgeComment comment.text else []

end Subject

end DocAudit.Check
