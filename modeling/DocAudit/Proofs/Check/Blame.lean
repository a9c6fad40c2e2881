import DocAudit.Proofs.Check.Verdict
import DocAudit.Proofs.Traversal

/-!
What a tag can be blamed for. Every violation that a rule reports is listed here with the words that
it quotes: of the tag's name and argument, or of the types that are known.
-/

set_option autoImplicit false

namespace DocAudit

/-- Whether a violation says that a reference is wrong. -/
def Violation.isReference : Violation → Bool
  | unresolvedSpecifiedType _ | unresolvedReferencedType _ | unresolvedArgumentType _
  | memberNotFound _ _ _ | methodNotFound _ _ | constructorNotFound _ _ | malformedOverload _ => true
  | _ => false

namespace Reference

/-- What a reference can be blamed for, in a tag of some name and inside the type `own`. -/
inductive Blames (scope : Scope) (table : TypeTable) (own tag reference : Text) : Violation → Prop where
  | type : Blames scope table own tag reference (.unresolvedSpecifiedType reference)
  | owner {type : Text} : type = own ∨ type ⊆ reference →
      Blames scope table own tag reference (.unresolvedReferencedType type)
  | member {type : Text} {ty : JavaType} : scope.resolve? table type = some ty →
      Blames scope table own tag reference (.memberNotFound tag reference ty.canonicalName)
  | overload : Blames scope table own tag reference (.malformedOverload tag)
  | argument {list name : Text} : name ∈ Signature.typeNames list →
      Blames scope table own tag reference (.unresolvedArgumentType name)
  | constructor {type member : Text} {ty : JavaType} : scope.resolve? table type = some ty →
      member ⊆ reference →
      Blames scope table own tag reference (.constructorNotFound member ty.canonicalName)
  | method {type member : Text} {ty : JavaType} : scope.resolve? table type = some ty →
      member ⊆ reference →
      Blames scope table own tag reference (.methodNotFound member ty.canonicalName)

variable {scope : Scope} {table : TypeTable} {own tag reference : Text} {v : Violation}

theorem Blames.isReference (blames : Blames scope table own tag reference v) : v.isReference := by
  cases blames <;> rfl

private theorem blames_of_resolve_error {list : Text}
    (failed : Signature.resolve scope table list = .error v) :
    Blames scope table own tag reference v := by
  obtain ⟨before, name, after, split, -, failed⟩ := Traversal.mapM_eq_error_iff.mp failed
  have member : name ∈ Signature.typeNames list := split ▸ List.mem_append_cons_self
  split at failed
  · simp at failed
  · obtain rfl := Except.error.inj failed
    exact .argument member

private theorem blames_of_checkOverload_error {type member name list : Text} {ty : JavaType}
    (resolved : scope.resolve? table type = some ty) (part : member ⊆ reference)
    (failed : checkOverload scope table tag ty member name list = .error v) :
    Blames scope table own tag reference v := by
  unfold checkOverload at failed
  simp only [bind, Except.bind, pure, Except.pure, throw, throwThe, MonadExceptOf.throw] at failed
  split at failed
  · next parameters after cut =>
    split at failed
    · next w unresolved =>
      obtain rfl := Except.error.inj failed
      exact blames_of_resolve_error unresolved
    · split_ifs at failed
      · obtain rfl := Except.error.inj failed
        exact .constructor resolved part
      · obtain rfl := Except.error.inj failed
        exact .method resolved part
  · obtain rfl := Except.error.inj failed
    exact .overload

/-- A wrong reference is blamed for nothing else. -/
theorem blames_of_check_error {argument : Text}
    (failed : check scope table own tag argument = .error v) :
    Blames scope table own tag (extract 0 argument.trim) v := by
  unfold check at failed
  simp only [pure, Except.pure, throw, throwThe, MonadExceptOf.throw] at failed
  split at failed
  · simp at failed
  · split at failed
    · next type member cut =>
      obtain ⟨whole, -⟩ := Text.cutFirst?_beq_eq_some_iff.mp cut
      split at failed
      · next ty resolved =>
        split at failed
        · refine blames_of_checkOverload_error resolved ?_ failed
          rw [whole]
          exact fun c inside => List.mem_append_right type (List.mem_cons_of_mem '#' inside)
        · split_ifs at failed
          obtain rfl := Except.error.inj failed
          exact .member resolved
      · obtain rfl := Except.error.inj failed
        refine .owner ?_
        split_ifs
        · exact Or.inl rfl
        · refine Or.inr ?_
          rw [whole]
          exact fun c inside => List.mem_append_left _ inside
    · split_ifs at failed
      obtain rfl := Except.error.inj failed
      exact .type

end Reference

namespace Check

/-- The names of the tags that have a rule. -/
def TagName.spellings : TagName → List Text
  | author => ["author"]
  | version => ["version"]
  | since => ["since"]
  | deprecated => ["deprecated"]
  | returns => ["return"]
  | param => ["param"]
  | link => ["link", "linkplain"]
  | value => ["value"]
  | see => ["see"]
  | throws => ["throws", "exception"]

/-- One question of a chain is answered, or the rest of the chain is asked. -/
private theorem TagName.of_ite {c : Prop} [Decidable c] {a tag : TagName} {r : Option TagName}
    (found : (if c then some a else r) = some tag) : c ∧ a = tag ∨ r = some tag := by
  split_ifs at found with holds
  · exact Or.inl ⟨holds, Option.some.inj found⟩
  · exact Or.inr found

theorem TagName.mem_spellings {name : Text} {tag : TagName} (found : ofText? name = some tag) :
    name ∈ tag.spellings := by
  unfold ofText? at found
  iterate 6
    rcases of_ite found with ⟨rfl, rfl⟩ | found
    · exact List.mem_cons_self
  rcases of_ite found with ⟨link, rfl⟩ | found
  · rw [Bool.or_eq_true, decide_eq_true_iff, decide_eq_true_iff] at link
    exact List.mem_cons.mpr (link.imp_right List.mem_singleton.mpr)
  iterate 2
    rcases of_ite found with ⟨rfl, rfl⟩ | found
    · exact List.mem_cons_self
  rcases of_ite found with ⟨throws, rfl⟩ | found
  · rw [Bool.or_eq_true, decide_eq_true_iff, decide_eq_true_iff] at throws
    exact List.mem_cons.mpr (throws.imp_right List.mem_singleton.mpr)
  · simp at found

/-- The names of the tags that hold a reference. -/
def referenceTags : List Text :=
  TagName.link.spellings ++ TagName.value.spellings ++ TagName.see.spellings

/-- What a tag can be blamed for without quoting anything. -/
def wordless : List Violation :=
  [.malformedAuthor, .malformedDeprecated, .malformedReturn, .malformedSince, .malformedValue,
    .malformedVersion, .illegalAuthor, .illegalReturn, .returnOnVoidMethod, .illegalVersion]

/-- What a tag can be blamed for. -/
inductive Blames (s : Subject) (name argument : Text) : Violation → Prop where
  | wordless {v : Violation} : v ∈ wordless → Blames s name argument v
  | noReference : name ∈ referenceTags → Blames s name argument (.malformedReference name)
  | misplacedParam : name = "param" → s.allowsParam = false →
      Blames s name argument (.illegalParam argument.trim)
  | noDescription : (∀ c ∈ argument.trim, ¬ Text.isBlank c) →
      Blames s name argument (.malformedParam argument.trim)
  | unknownParameter {parameter : Text} : (∀ c ∈ parameter, ¬ Text.isBlank c) →
      Blames s name argument (.unknownParameter parameter)
  | misplacedThrows : name ∈ TagName.throws.spellings → Blames s name argument (.illegalThrows name)
  | noException : name ∈ TagName.throws.spellings → Blames s name argument (.malformedThrows name)
  | unresolvedException : Blames s name argument (.unresolvedException argument.trim.firstWord)
  | notThrown : Blames s name argument (.exceptionNotThrown argument.trim.firstWord)
  | reference {v : Violation} : s.settings.checkReferences → name ∈ referenceTags →
      Reference.Blames s.scope s.table s.declaration.owner name
        (Reference.extract 0 argument.trim) v →
      Blames s name argument v

variable {s : Subject} {name argument : Text} {v : Violation}

section Rules

private theorem blames_of_judgeText {missing : Violation} (silent : missing ∈ wordless)
    (found : (judgeText missing argument).violation = some v) : Blames s name argument v := by
  unfold judgeText at found
  split_ifs at found
  · obtain rfl := Option.some.inj found
    exact .wordless silent
  · simp at found

private theorem blames_of_judgeTypeText {illegal missing : Violation} (silent : illegal ∈ wordless)
    (silent' : missing ∈ wordless)
    (found : (judgeTypeText s illegal missing argument).violation = some v) :
    Blames s name argument v := by
  unfold judgeTypeText at found
  split_ifs at found
  · exact blames_of_judgeText silent' found
  · obtain rfl := Option.some.inj found
    exact .wordless silent

private theorem blames_of_judgeReturn (found : (judgeReturn s argument).violation = some v) :
    Blames s name argument v := by
  unfold judgeReturn at found
  simp only at found
  split_ifs at found
  · obtain rfl := Option.some.inj found
    exact .wordless (by decide)
  · obtain rfl := Option.some.inj found
    exact .wordless (by decide)
  · exact blames_of_judgeText (by decide) found

private theorem blames_of_judgeParam (named : name = "param")
    (found : (judgeParam s argument).violation = some v) : Blames s name argument v := by
  unfold judgeParam at found
  simp only at found
  split_ifs at found with allowed
  · split at found
    · next uncut =>
      obtain rfl := Option.some.inj found
      exact .noDescription (Text.cutFirst?_eq_none_iff.mp uncut)
    · next parameter description cut =>
      obtain ⟨c, blank, whole, solid⟩ := Text.cutFirst?_eq_some_iff.mp cut
      split_ifs at found with malformed known
      · -- A trimmed text with white space in it has words on both sides.
        exfalso
        rcases Bool.or_eq_true_iff.mp malformed with nameless | undescribed
        · rw [List.isEmpty_iff.mp nameless] at whole
          exact Text.trim_ne_cons_of_isBlank blank whole
        · exact Text.trim_ne_append_of_isAllBlank (List.cons_ne_nil c description)
            (by simpa [Text.isAllBlank, blank] using undescribed) whole
      · simp at found
      · obtain rfl := Option.some.inj found
        exact .unknownParameter solid
  · obtain rfl := Option.some.inj found
    exact .misplacedParam named (Bool.eq_false_iff.mpr allowed)

private theorem blames_of_judgeReference {text : Text} (named : name ∈ referenceTags)
    (same : text.trim = argument.trim)
    (found : (judgeReference s name text).violation = some v) : Blames s name argument v := by
  unfold judgeReference at found
  split_ifs at found with checked
  · split at found
    · simp at found
    · next failed =>
      obtain rfl := Option.some.inj found
      exact .reference checked named (same ▸ Reference.blames_of_check_error failed)
  · simp at found

private theorem blames_of_judgeLink {missing : Violation} (named : name ∈ referenceTags)
    (blames : Blames s name argument missing)
    (found : (judgeLink s name missing argument).violation = some v) :
    Blames s name argument v := by
  unfold judgeLink at found
  split_ifs at found
  · obtain rfl := Option.some.inj found
    exact blames
  · exact blames_of_judgeReference named rfl found

private theorem blames_of_judgeSee (named : name = "see")
    (found : (judgeSee s argument).violation = some v) : Blames s name argument v := by
  subst named
  unfold judgeSee at found
  simp only at found
  split at found
  · obtain rfl := Option.some.inj found
    exact .noReference (by decide)
  · simp at found
  · simp at found
  · exact blames_of_judgeReference (by decide) (Text.trim_trim argument) found

private theorem blames_of_judgeThrows (named : name ∈ TagName.throws.spellings)
    (found : (judgeThrows s name argument).violation = some v) : Blames s name argument v := by
  unfold judgeThrows at found
  simp only at found
  split_ifs at found
  · obtain rfl := Option.some.inj found
    exact .misplacedThrows named
  · obtain rfl := Option.some.inj found
    exact .noException named
  · split at found
    · obtain rfl := Option.some.inj found
      exact .unresolvedException
    · split_ifs at found
      · simp at found
      · obtain rfl := Option.some.inj found
        exact .notThrown

end Rules

/-- A tag is blamed for nothing else. -/
theorem blames_of_judge (found : (judge s name argument).violation = some v) :
    Blames s name argument v := by
  unfold judge at found
  cases rule : TagName.ofText? name with
  | none => simp [rule] at found
  | some tag =>
    have named := TagName.mem_spellings rule
    rw [rule] at found
    cases tag with
    | author | version => exact blames_of_judgeTypeText (by decide) (by decide) found
    | since | deprecated => exact blames_of_judgeText (by decide) found
    | returns => exact blames_of_judgeReturn found
    | param => exact blames_of_judgeParam (List.mem_singleton.mp named) found
    | link =>
      have named : name ∈ referenceTags := List.mem_append_left _ (List.mem_append_left _ named)
      exact blames_of_judgeLink named (.noReference named) found
    | value =>
      have named : name ∈ referenceTags := List.mem_append_left _ (List.mem_append_right _ named)
      exact blames_of_judgeLink named (.wordless (by decide)) found
    | see => exact blames_of_judgeSee (List.mem_singleton.mp named) found
    | throws => exact blames_of_judgeThrows named found

/-- No tag is blamed for an omission. -/
theorem isOmission_of_judge (found : (judge s name argument).violation = some v) :
    v.isOmission = false := by
  cases blames_of_judge found with
  | wordless silent =>
    have harmless : ∀ w ∈ wordless, w.isOmission = false := by decide
    exact harmless v silent
  | reference _ _ blames => cases blames <;> rfl
  | _ => rfl

/-- Wrongly inherited documentation is one of two violations. -/
theorem cases_of_judgeInheritDoc (found : judgeInheritDoc s = some v) :
    v = .inheritDocOnNonOverride ∧ s.kind = .method ∧ s.isOverride = false ∨
      v = .inheritDocWithoutSupertype := by
  unfold judgeInheritDoc at found
  split at found
  · next kind =>
    split_ifs at found with overrides
    obtain rfl := Option.some.inj found
    exact Or.inl ⟨rfl, kind, Bool.eq_false_iff.mpr overrides⟩
  · split_ifs at found
    exact Or.inr (Option.some.inj found).symm
  · split_ifs at found
    exact Or.inr (Option.some.inj found).symm
  · simp at found

/-- Wrongly inherited documentation is no omission. -/
theorem isOmission_of_judgeInheritDoc (found : judgeInheritDoc s = some v) :
    v.isOmission = false := by
  rcases cases_of_judgeInheritDoc found with ⟨rfl, -, -⟩ | rfl
  · rfl
  · rfl

end Check

end DocAudit
