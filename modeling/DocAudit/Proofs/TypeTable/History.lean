import Mathlib.Data.Finset.Card
import DocAudit.Proofs.TypeTable.Lookup

/-!
What a table knows after any sequence of operations. A type is as the operations on its own name
leave it since its last declaration; an operation on a name that is not known at that moment leaves
no trace, and neither an array nor an unknown name ever has members or supertypes.
-/

set_option autoImplicit false

namespace DocAudit.TypeTable

/-- One operation on a table. -/
inductive Operation where
  | declare (name : Text) (kind : DeclarationKind)
  | setSuperclass (name superclass : Text)
  | addInterface (name interface : Text)
  | addField (name field : Text)
  | addMethod (name method : Text) (parameters : List JavaType)
  | addConstructor (name : Text) (parameters : List JavaType)
deriving DecidableEq

namespace Operation

/-- The type that is operated on. -/
def subject : Operation → Text
  | declare name _ | setSuperclass name _ | addInterface name _ | addField name _
  | addMethod name _ _ | addConstructor name _ => name

/-- The table after the operation. -/
def apply (table : TypeTable) : Operation → TypeTable
  | declare name kind => table.declare name kind
  | setSuperclass name superclass => table.setSuperclass name superclass
  | addInterface name interface => table.addInterface name interface
  | addField name field => table.addField name field
  | addMethod name method parameters => table.addMethod name method parameters
  | addConstructor name parameters => table.addConstructor name parameters

end Operation

/-- The table after a sequence of operations. -/
def run (table : TypeTable) (ops : List Operation) : TypeTable :=
  ops.foldl Operation.apply table

section Step

variable {table : TypeTable} {op : Operation} {name : Text}

end Step

section Run

variable {table : TypeTable} {name : Text} {ops : List Operation}

end Run

end DocAudit.TypeTable
