import DocAudit.Proofs.Java.Members
import DocAudit.Scope

/-!
The outermost type around a declaration. A declaration remembers it, while the table of a project
reads it back from the binary name of the owner, up to the first dollar sign. The two agree exactly
when neither the package nor the outermost type has a dollar sign in its name.
-/

set_option autoImplicit false

namespace DocAudit

/-- The binary name is that of the outermost type or of a type nested in it. -/
def JavaType.Within (outermost binaryName : Text) : Prop :=
  binaryName = outermost ∨ ∃ nested, binaryName = outermost ++ '$' :: nested

theorem JavaType.Within.nested {outer binaryName : Text} (within : Within outer binaryName)
    (name : Text) : Within outer (binaryName ++ "$" ++ name) := by
  have sign : binaryName ++ "$" ++ name = binaryName ++ '$' :: name := List.append_assoc _ _ _
  rw [sign]
  rcases within with rfl | ⟨between, rfl⟩
  · exact Or.inr ⟨name, rfl⟩
  · exact Or.inr ⟨between ++ '$' :: name, List.append_assoc _ _ _⟩

/-- The outermost type is read back from a binary name unless it has a dollar sign itself. -/
theorem JavaType.Within.outermost_eq_iff {outer binaryName : Text}
    (within : Within outer binaryName) : outermost binaryName = outer ↔ '$' ∉ outer := by
  constructor
  · rintro same dollar
    rw [← same] at dollar
    exact absurd (List.mem_takeWhile_imp dollar) (by decide)
  · intro plain
    have kept : ∀ c ∈ outer, (c != '$') = true := by
      intro c member
      rw [bne_iff_ne]
      rintro rfl
      exact plain member
    rcases within with rfl | ⟨nested, rfl⟩
    · exact List.takeWhile_eq_self_iff.mpr kept
    · rw [outermost, List.takeWhile_append_of_pos kept,
        List.takeWhile_cons_of_neg (by decide), List.append_nil]

theorem Scope.ofUnit_eq_iff {unit : CompilationUnit} {outer outer' : Text} :
    ofUnit unit outer = ofUnit unit outer' ↔ outer = outer' :=
  ⟨fun same => congrArg Scope.enclosing same, fun same => congrArg (ofUnit unit) same⟩

namespace Java

open JavaType (Within)

theorem Surroundings.within_enter {s : Surroundings} (header : TypeHeader)
    (within : Within s.outermost s.owner) :
    Within (s.enter header).outermost (s.enter header).owner := by
  cases s with
  | package name => exact Or.inl rfl
  | type around => exact within.nested header.name

namespace Item

variable {s : Surroundings} {before items : List Item} {d : Declaration}

/-- What a declaration remembers is the outermost type around its owner. -/
private theorem within_of_mem_declarations (within : Within s.outermost s.owner)
    (found : d ∈ declarations s before items) : Within d.outermost d.owner := by
  fun_induction declarations s before items with
  | case1 => exact absurd found List.not_mem_nil
  | case2 s before line modifiers header body rest ihBody ihRest =>
    have inside := Surroundings.within_enter header within
    rcases List.mem_append.mp found with found | found
    · rcases List.mem_cons.mp found with rfl | found
      · exact inside
      · exact ihBody inside found
    · exact ihRest within found
  | case3 s before line modifiers header rest ih =>
    rcases List.mem_cons.mp found with rfl | found
    · exact within
    · exact ih within found
  | case4 s before line modifiers names rest ih =>
    rcases List.mem_cons.mp found with rfl | found
    · exact within
    · exact ih within found
  | case5 s before item rest _ _ _ ih => exact ih within found

/-- The item declares a type that has this outermost type, or is it. -/
def HasOutermost (s : Surroundings) (outer : Text) : Item → Prop
  | type _ _ header _ => outer = (s.enter header).outermost
  | _ => False

/-- A declaration remembers the outermost type of the place where the items stand, or that of the
type among them in which it is declared. -/
private theorem outermost_of_mem_declarations (found : d ∈ declarations s before items) :
    (d.outermost = s.outermost ∧ ∃ item ∈ items, item.isMember) ∨
      ∃ item ∈ items, item.HasOutermost s d.outermost := by
  fun_induction declarations s before items with
  | case1 => exact absurd found List.not_mem_nil
  | case2 s before line modifiers header body rest ihBody ihRest =>
    simp only [List.exists_mem_cons_iff]
    rcases List.mem_append.mp found with found | found
    · rcases List.mem_cons.mp found with rfl | found
      · exact Or.inr (Or.inl rfl)
      · -- Inside a type all declarations have the outermost type of that type.
        rcases ihBody found with ⟨same, -⟩ | ⟨item, -, same⟩
        · exact Or.inr (Or.inl same)
        · cases item with
          | type => exact Or.inr (Or.inl same)
          | _ => exact absurd same id
    · exact (ihRest found).imp (And.imp_right Or.inr) Or.inr
  | case3 s before line modifiers header rest ih =>
    simp only [List.exists_mem_cons_iff]
    rcases List.mem_cons.mp found with rfl | found
    · exact Or.inl ⟨rfl, Or.inl rfl⟩
    · exact (ih found).imp (And.imp_right Or.inr) Or.inr
  | case4 s before line modifiers names rest ih =>
    simp only [List.exists_mem_cons_iff]
    rcases List.mem_cons.mp found with rfl | found
    · exact Or.inl ⟨rfl, Or.inl rfl⟩
    · exact (ih found).imp (And.imp_right Or.inr) Or.inr
  | case5 s before item rest _ _ _ ih =>
    simp only [List.exists_mem_cons_iff]
    exact (ih found).imp (And.imp_right Or.inr) Or.inr

end Item

section Outline

/-- In every source, a declaration remembers the name of a type that stands in the source itself,
and its scope is the one in which the table of a project erases the type that owns it, unless that
name has a dollar sign. Dollar signs in the names of nested types do no harm. -/
theorem scope_of_owner_iff (source : Text) :
    ∀ t ∈ (outline source).types, ∀ d ∈ (outline source).declarations, d.owner = t.binaryName →
      (∃ line modifiers header body,
        .type line modifiers header body ∈ Item.ofSource source ∧
        d.outermost = (Surroundings.package (outline source).package).binaryName header.name) ∧
      (Scope.ofUnit (outline source) (JavaType.outermost t.binaryName) =
        Scope.ofUnit (outline source) d.outermost ↔ '$' ∉ d.outermost) := by
  intro t _ d found owned
  constructor
  · rcases Item.outermost_of_mem_declarations found with
      ⟨-, item, among, isMember⟩ | ⟨item, among, same⟩
    · exact absurd isMember (by simp [Item.isMember_of_mem_ofSource among])
    · cases item with
      | type line modifiers header body => exact ⟨line, modifiers, header, body, among, same⟩
      | _ => exact absurd same id
  · have within : Within d.outermost d.owner :=
      Item.within_of_mem_declarations (Or.inl rfl) found
    rw [Scope.ofUnit_eq_iff, ← owned, within.outermost_eq_iff]

/-- The dollar sign stands in the name of a nested type. -/
theorem scope_of_nested_dollar :
    let unit := outline "package shop;class Cart{class Item$Part{void add(){}}}"
    ∃ t ∈ unit.types, ∃ d ∈ unit.declarations,
      t.binaryName = "shop.Cart$Item$Part" ∧ d.name = "add" ∧ d.owner = t.binaryName ∧
      Scope.ofUnit unit (JavaType.outermost t.binaryName) = Scope.ofUnit unit d.outermost := by
  intro unit
  have located : ∃ t ∈ unit.types, ∃ d ∈ unit.declarations, t.binaryName = "shop.Cart$Item$Part" ∧
      d.name = "add" ∧ d.owner = t.binaryName ∧ '$' ∉ d.outermost := by
    decide +kernel
  obtain ⟨t, isType, d, isDeclared, nested, method, owned, plain⟩ := located
  exact ⟨t, isType, d, isDeclared, nested, method, owned,
    (scope_of_owner_iff _ t isType d isDeclared owned).2.mpr plain⟩

/-- The dollar sign stands in the name of a type of the package: the table takes what is before it
for the outermost type, which the declarations of that type do not. -/
theorem scope_of_outermost_dollar :
    let unit := outline "package shop;class Cart$Line{void add(){}}"
    ∃ t ∈ unit.types, ∃ d ∈ unit.declarations, d.name = "add" ∧ d.owner = t.binaryName ∧
      (Scope.ofUnit unit (JavaType.outermost t.binaryName)).enclosing = "shop.Cart" ∧
      (Scope.ofUnit unit d.outermost).enclosing = "shop.Cart$Line" := by
  decide +kernel

end Outline

end Java

end DocAudit
