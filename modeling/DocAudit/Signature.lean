import DocAudit.Scope
import DocAudit.Violation

/-!
Parameter lists such as `int count, float, String name`, of which only the types count.
-/

set_option autoImplicit false

namespace DocAudit.Signature

/-- The first, third, fifth, … element. -/
def everySecond {α : Type} : List α → List α
  | [] => []
  | [a] => [a]
  | a :: _ :: rest => a :: everySecond rest

/-- The part of a parameter list that is read: what follows its opening parenthesis, if it has one,
up to the first closing one. -/
def inside (list : Text) : Text :=
  let body :=
    match list.trimLeft with
    | '(' :: rest => rest
    | rest => rest
  body.takeWhile (· != ')')

/-- The type names of a parameter list. Between two commas types and parameter names alternate. -/
def typeNames (list : Text) : List Text :=
  (List.splitOn ',' (inside list)).flatMap fun item => everySecond (Text.words item)

/-- The types of a parameter list, or the first that cannot be resolved. -/
def resolve (scope : Scope) (table : TypeTable) (list : Text) : Except Violation (List JavaType) :=
  (typeNames list).mapM fun name =>
    match scope.resolve? table name with
    | some ty => .ok ty
    | none => .error (.unresolvedArgumentType name)

end DocAudit.Signature
