import DocAudit.Reference
import DocAudit.Settings

/-!
The rule for each tag. A rule asks first whether the tag may stand here, then whether it has its
argument, and last whether what the argument names is right; the first failure is the violation.
No rule depends on any other tag.
-/

set_option autoImplicit false

namespace DocAudit.Check

/-- What a comment is checked against. -/
structure Subject where
  declaration : Declaration
  scope : Scope
  table : TypeTable
  settings : Settings
  /-- Whether the declaration overrides one of a supertype. -/
  isOverride : Bool

namespace Subject

/-- The kind of the declaration. -/
def kind (s : Subject) : DeclarationKind :=
  s.declaration.kind

/-- The names that a parameter tag may document: the parameters, and the type variables in angle
brackets. -/
def parameterNames (s : Subject) : List Text :=
  s.declaration.parameters.map (·.name) ++
    s.declaration.typeVariables.map fun v => ("<" : Text) ++ v.name ++ ">"

/-- The declared exceptions up to the first name that cannot be resolved, and that name. -/
def resolveThrows (s : Subject) : List Text → List JavaType × Option Text
  | [] => ([], none)
  | name :: rest =>
    match s.scope.resolve? s.table name with
    | none => ([], some name)
    | some ty =>
      let (types, unresolved) := s.resolveThrows rest
      (ty :: types, unresolved)

/-- The exceptions that the declaration has, as far as they can be resolved. Only methods and
constructors have any. -/
def throws (s : Subject) : List JavaType × Option Text :=
  if s.kind.isCallable then s.resolveThrows s.declaration.throws else ([], none)

/-- Whether parameter tags may stand in the comment: on methods, constructors, records and generic
types. -/
def allowsParam (s : Subject) : Bool :=
  s.kind.isCallable || s.kind == .recordType ||
    (s.kind.isCheckedType && !s.declaration.typeVariables.isEmpty)

end Subject

/-- What a tag may document. -/
inductive Documented where
  | result
  | parameter (name : Text)
  | exception (type : JavaType)
deriving DecidableEq

/-- What a tag amounts to: its violation, if any, whether its argument counts towards the length of
the comment, and what it documents. -/
structure Verdict where
  violation : Option Violation := none
  counts : Bool := false
  documents : Option Documented := none

namespace Verdict

/-- A tag that is refused. -/
def refuse (v : Violation) : Verdict :=
  { violation := some v }

/-- A tag whose argument counts. -/
def accept : Verdict :=
  { counts := true }

/-- A tag whose argument counts although it has a violation. -/
def blame (v : Violation) : Verdict :=
  { violation := some v, counts := true }

/-- A tag whose argument counts, and which documents something. -/
def document (d : Documented) : Verdict :=
  { counts := true, documents := some d }

end Verdict

open Verdict

/-- A tag that needs nothing but an argument. -/
def judgeText (missing : Violation) (argument : Text) : Verdict :=
  if argument.isAllBlank then refuse missing else accept

/-- A tag for types only, which needs an argument. -/
def judgeTypeText (s : Subject) (illegal missing : Violation) (argument : Text) : Verdict :=
  if s.kind.isCheckedType then judgeText missing argument else refuse illegal

/-- The tag for the result of a method. It counts as documentation even where it is refused, so
that a mistake is reported once. -/
def judgeReturn (s : Subject) (argument : Text) : Verdict :=
  let verdict :=
    if s.kind ≠ .method then refuse .illegalReturn
    else if s.declaration.isVoidMethod then refuse .returnOnVoidMethod
    else judgeText .malformedReturn argument
  { verdict with documents := some .result }

/-- The tag for a parameter or type variable: its name and a description. -/
def judgeParam (s : Subject) (argument : Text) : Verdict :=
  let text := argument.trim
  if s.allowsParam then
    match text.cutFirst? Text.isBlank with
    | none => refuse (.malformedParam text)
    | some (name, description) =>
      if name.isEmpty || description.isAllBlank then refuse (.malformedParam text)
      else if s.parameterNames.contains name then document (.parameter name)
      else blame (.unknownParameter name)
  else refuse (.illegalParam text)

/-- The reference at the start of a tag's argument. -/
def judgeReference (s : Subject) (tag argument : Text) : Verdict :=
  if s.settings.checkReferences then
    match Reference.check s.scope s.table s.declaration.owner tag argument with
    | .ok _ => accept
    | .error v => blame v
  else accept

/-- A tag that holds a reference. -/
def judgeLink (s : Subject) (tag : Text) (missing : Violation) (argument : Text) : Verdict :=
  if argument.isAllBlank then refuse missing else judgeReference s tag argument

/-- The tag for further reading: a title in quotes, a link in markup, or a reference. -/
def judgeSee (s : Subject) (argument : Text) : Verdict :=
  let text := argument.trim
  match text with
  | [] => refuse (.malformedReference "see")
  | '"' :: _ | '<' :: _ => accept
  | _ => judgeReference s "see" text

/-- The tag for an exception. It must be unchecked or declared. -/
def judgeThrows (s : Subject) (tag argument : Text) : Verdict :=
  let text := argument.trim
  if !s.kind.isCallable then refuse (.illegalThrows tag)
  else if text.isEmpty then refuse (.malformedThrows tag)
  else
    let name := text.firstWord
    match s.scope.resolve? s.table name with
    | none => blame (.unresolvedException name)
    | some ty =>
      if s.table.isUnchecked ty || s.throws.1.contains ty then document (.exception ty)
      else blame (.exceptionNotThrown name)

/-- The tags that have a rule. -/
inductive TagName where
  | author
  | version
  | since
  | deprecated
  | returns
  | param
  | link
  | value
  | see
  | throws

/-- The rule that a tag's name calls for. -/
def TagName.ofText? (name : Text) : Option TagName :=
  if name = "author" then some author
  else if name = "version" then some version
  else if name = "since" then some since
  else if name = "deprecated" then some deprecated
  else if name = "return" then some returns
  else if name = "param" then some param
  else if name = "link" || name = "linkplain" then some link
  else if name = "value" then some value
  else if name = "see" then some see
  else if name = "throws" || name = "exception" then some throws
  else none

/-- What a tag amounts to. A tag without a rule is never wrong and never counts. -/
def judge (s : Subject) (name argument : Text) : Verdict :=
  match TagName.ofText? name with
  | none => {}
  | some .author => judgeTypeText s .illegalAuthor .malformedAuthor argument
  | some .version => judgeTypeText s .illegalVersion .malformedVersion argument
  | some .since => judgeText .malformedSince argument
  | some .deprecated => judgeText .malformedDeprecated argument
  | some .returns => judgeReturn s argument
  | some .param => judgeParam s argument
  | some .link => judgeLink s name (.malformedReference name) argument
  | some .value => judgeLink s name .malformedValue argument
  | some .see => judgeSee s argument
  | some .throws => judgeThrows s name argument

/-- Documentation is inherited only by a method that overrides, or by a type with a supertype. -/
def judgeInheritDoc (s : Subject) : Option Violation :=
  match s.kind with
  | .method => if s.isOverride then none else some .inheritDocOnNonOverride
  | .classType | .interfaceType =>
    if s.declaration.hasSupertypes then none else some .inheritDocWithoutSupertype
  | _ => none

end DocAudit.Check
