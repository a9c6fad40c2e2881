import DocAudit.Proofs.TypeTable.Reachability

/-!
Which methods override another. One that a different type above declares does; so does one of a type
that its own supertypes lead back to, without any other type that declares it.
-/

set_option autoImplicit false

namespace DocAudit.TypeTable

variable {table : TypeTable} {ty super : JavaType} {name : Text} {parameters : List JavaType}

/-- A type other than this one, which its superclass or interfaces lead to, declares a method with
this name and exactly these parameter types. -/
def Inherits (table : TypeTable) (ty : JavaType) (name : Text) (parameters : List JavaType) :
    Prop :=
  ∃ super, super ≠ ty ∧ (∃ start ∈ table.supertypes ty, table.Reaches start super) ∧
    ⟨name, parameters⟩ ∈ table.methods super

/-- The superclass or an interface of this type is another type that leads back to this one. -/
def LeadsBack (table : TypeTable) (ty : JavaType) : Prop :=
  ∃ start ∈ table.supertypes ty, start ≠ ty ∧ table.Reaches start ty

/-- On the way to another type the last visit of the first one is followed by a supertype that is
different from it. -/
private theorem exists_other_start (leads : table.Reaches ty super) (other : super ≠ ty) :
    ∃ start ∈ table.supertypes ty, start ≠ ty ∧ table.Reaches start super := by
  induction leads with
  | refl => exact absurd rfl other
  | @tail last next _ edge ih =>
    by_cases again : last = ty
    · subst again
      exact ⟨next, edge, other, Relation.ReflTransGen.refl⟩
    · obtain ⟨start, direct, different, leads⟩ := ih again
      exact ⟨start, direct, different, leads.tail edge⟩

private theorem overrides_eq_true_iff : table.overrides ty name parameters ↔
    ∃ start ∈ table.supertypes ty, start ≠ ty ∧
      ∃ super, table.Reaches start super ∧ ⟨name, parameters⟩ ∈ table.methods super := by
  simp only [overrides, List.any_eq_true, List.mem_filter, bne_iff_ne, hasOverload_eq_true_iff,
    and_assoc]

private theorem mem_names_of_mem_methods {m : MethodSignature} (declares : m ∈ table.methods ty) :
    ty = ⟨ty.element, 0⟩ ∧ ty.element ∈ table.names := by
  cases found : table.known? ty with
  | none => simp [methods, found] at declares
  | some known =>
    rw [known?] at found
    split at found
    · simp at found
    · next plain =>
      refine ⟨?_, mem_names_of_find?_eq_some found⟩
      have dimensions : ty.dimensions = 0 := by simpa [JavaType.isArray] using plain
      rw [← dimensions]

/-- A method overrides another exactly if a different type above declares it, or if its own type
does and another type above leads back to that one. So no method overrides itself wherever
superclasses and interfaces lead back from no other type. -/
theorem overrides_iff_inherits (table : TypeTable) (ty : JavaType) (name : Text)
    (parameters : List JavaType) :
    (table.overrides ty name parameters ↔ table.Inherits ty name parameters ∨
      table.LeadsBack ty ∧ ⟨name, parameters⟩ ∈ table.methods ty) ∧
    (¬ table.LeadsBack ty →
      (table.overrides ty name parameters ↔ table.Inherits ty name parameters)) := by
  have precisely : table.overrides ty name parameters ↔ table.Inherits ty name parameters ∨
      table.LeadsBack ty ∧ ⟨name, parameters⟩ ∈ table.methods ty := by
    rw [overrides_eq_true_iff]
    constructor
    · rintro ⟨start, direct, different, super, leads, declares⟩
      by_cases own : super = ty
      · subst own
        exact Or.inr ⟨⟨start, direct, different, leads⟩, declares⟩
      · exact Or.inl ⟨super, own, ⟨start, direct, leads⟩, declares⟩
    · rintro (⟨super, other, ⟨start, direct, leads⟩, declares⟩ |
        ⟨⟨start, direct, different, leads⟩, declares⟩)
      · obtain ⟨start, direct, different, leads⟩ :=
          exists_other_start (Relation.ReflTransGen.head direct leads) other
        exact ⟨start, direct, different, super, leads, declares⟩
      · exact ⟨start, direct, different, ty, leads, declares⟩
  refine ⟨precisely, fun apart => precisely.trans ⟨?_, Or.inl⟩⟩
  rintro (inherits | ⟨back, -⟩)
  · exact inherits
  · exact absurd back apart

/-- Two classes that extend each other. Only the first has a method. -/
def ring : TypeTable :=
  ((((TypeTable.empty.declare "Shelf" .classType).addMethod "Shelf" "size" []).declare "Rack"
    .classType).setSuperclass "Shelf" "Rack").setSuperclass "Rack" "Shelf"

/-- The only method of the two classes overrides itself. -/
theorem overrides_itself_in_ring :
    ring.overrides ⟨"Shelf", 0⟩ "size" [] ∧ ¬ ring.Inherits ⟨"Shelf", 0⟩ "size" [] := by
  constructor
  · have back : ring.Reaches ⟨"Rack", 0⟩ ⟨"Shelf", 0⟩ :=
      Relation.ReflTransGen.single (by decide +kernel)
    exact overrides_eq_true_iff.mpr
      ⟨⟨"Rack", 0⟩, by decide +kernel, by decide, ⟨"Shelf", 0⟩, back, by decide +kernel⟩
  · rintro ⟨super, other, -, declares⟩
    obtain ⟨plain, among⟩ := mem_names_of_mem_methods declares
    have names : ring.names = ["Shelf".toList, "Rack".toList] := by decide +kernel
    rw [names] at among
    rw [plain] at other declares
    rcases List.mem_cons.mp among with first | among
    · rw [first] at other
      exact other rfl
    · rw [List.mem_singleton.mp among] at declares
      exact absurd declares (by decide +kernel)

end DocAudit.TypeTable
