import DocAudit.Scope

/-!
Erasure of types as written in source: type arguments are dropped, type variables become their
bound, and what remains is resolved.
-/

set_option autoImplicit false

namespace DocAudit.Erasure

/-- The text without white space and without what stands between angle brackets, of which `depth`
are open. -/
def dropArguments (depth : Nat) : Text → Text
  | [] => []
  | c :: rest =>
    if c = '<' then dropArguments (depth + 1) rest
    else if c = '>' then dropArguments (depth - 1) rest
    else if depth = 0 && !Text.isBlank c then c :: dropArguments depth rest
    else dropArguments depth rest

/-- A variable number of arguments arrives as an array. -/
def dotsToBrackets : Text → Text
  | '.' :: '.' :: '.' :: rest => '[' :: ']' :: dotsToBrackets rest
  | c :: rest => c :: dotsToBrackets rest
  | [] => []

/-- The number of empty pairs of brackets. -/
def countBrackets : Text → Nat
  | '[' :: ']' :: rest => countBrackets rest + 1
  | _ :: rest => countBrackets rest
  | [] => 0

/-- The type that a name stands for; one that cannot be resolved is kept as written. -/
def named (scope : Scope) (table : TypeTable) (name : Text) : JavaType :=
  (scope.resolve? table name).getD ⟨name, 0⟩

/-- The erasure of a type variable: its first bound. -/
def bound (scope : Scope) (table : TypeTable) (v : TypeVariable) : JavaType :=
  match v.bound with
  | some type => named scope table (dropArguments 0 type)
  | none => .object

/-- The erasure of a type as written, where the type variables in scope are listed from the
innermost. -/
def erase (scope : Scope) (table : TypeTable) (inScope : List TypeVariable) (type : Text) :
    JavaType :=
  let written := dotsToBrackets (dropArguments 0 type)
  let base := written.takeWhile (· != '[')
  let element :=
    match inScope.find? (·.name == base) with
    | some v => bound scope table v
    | none => named scope table base
  element.withDimensions (countBrackets written)

end DocAudit.Erasure
