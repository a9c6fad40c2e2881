import DocAudit.Signature
import DocAudit.TypeTable.Hierarchy

/-!
References in comments: `Type`, `Type#member` and `Type#member(parameters)`, followed by a label.
A reference is right when what it names exists.
-/

set_option autoImplicit false

namespace DocAudit.Reference

/-- The reference at the start of a text: up to the first white space outside of parentheses, of
which `depth` are open. -/
def extract (depth : Nat) : Text → Text
  | [] => []
  | c :: rest =>
    if c = '(' then c :: extract (depth + 1) rest
    else if c = ')' then c :: extract (depth - 1) rest
    else if Text.isBlank c && depth == 0 then []
    else c :: extract depth rest

/-- What is wrong with `member(parameters)` in a type. The parts around the opening parenthesis are
`name` and `list`, and the type's own name stands for its constructors. -/
def checkOverload (scope : Scope) (table : TypeTable) (tag : Text) (ty : JavaType)
    (member name list : Text) : Except Violation Unit := do
  let some (parameters, _) := list.cutFirst? (· == ')') | throw (.malformedOverload tag)
  let types ← Signature.resolve scope table parameters
  if name.trim = ty.simpleName then
    if table.hasConstructor ty types then return
    throw (.constructorNotFound member ty.canonicalName)
  if table.hasOverload ty name.trim types then return
  throw (.methodNotFound member ty.canonicalName)

/-- What is wrong with the reference at the start of a tag's argument. A member without a type
belongs to the type `own`. -/
def check (scope : Scope) (table : TypeTable) (own tag argument : Text) : Except Violation Unit := do
  let reference := extract 0 argument.trim
  if reference.isEmpty then return
  let some (type, member) := reference.cutFirst? (· == '#')
    | if (scope.resolve? table reference).isSome then return
      throw (.unresolvedSpecifiedType reference)
  let type := if type.isEmpty then own else type
  let some ty := scope.resolve? table type | throw (.unresolvedReferencedType type)
  match member.cutFirst? (· == '(') with
  | some (name, list) => checkOverload scope table tag ty member name list
  | none =>
    if table.hasFieldOrMethod ty member then return
    throw (.memberNotFound tag reference ty.canonicalName)

end DocAudit.Reference
