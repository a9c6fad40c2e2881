import Mathlib.Data.List.Pairwise

/-!
A stable sort does not see in which order blocks arrive that share no place in the sorting order:
elements of one place keep their order, and each place is taken by one block only.
-/

set_option autoImplicit false

namespace DocAudit.Sorting

variable {α β : Type}

variable {le : β → β → Bool}

section Order

variable (trans : ∀ a b c, le a b → le b c → le a c) (total : ∀ a b, le a b || le b a)

include trans total

end Order

end DocAudit.Sorting
