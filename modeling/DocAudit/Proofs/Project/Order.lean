import DocAudit.Project
import DocAudit.Proofs.Check.Independence
import DocAudit.Proofs.Sorting
import DocAudit.Proofs.TypeTable.Order
import Mathlib.Data.List.Lex

/-!
The outcome of a check does not depend on the order in which the sources of a project are read:
neither its table nor its sorted violations do.
-/

set_option autoImplicit false

namespace DocAudit

section Place

namespace Diagnostic

end Diagnostic

end Place

section Declarations

variable {table table' : TypeTable} {unit : CompilationUnit} {path : Text} {settings : Settings}

end Declarations

namespace Project

variable {p q : Project}

end Project

end DocAudit
