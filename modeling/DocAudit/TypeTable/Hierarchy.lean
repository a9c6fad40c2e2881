import DocAudit.TypeTable

/-!
The supertypes of a type, its inherited members, and the exceptions that need no declaration. A
hierarchy may be cyclic and may name types that are not known, so each search keeps what it has
seen.
-/

set_option autoImplicit false

namespace DocAudit.TypeTable

/-- The superclass of a type, then the interfaces that it names. -/
def supertypes (table : TypeTable) (ty : JavaType) : List JavaType :=
  (table.superclass? ty).toList ++ table.interfaces ty

/-- The number of known types that are not among `seen`. -/
def unseen (table : TypeTable) (seen : List JavaType) : Nat :=
  (table.names.filter fun name => ⟨name, 0⟩ ∉ seen).length

private theorem length_filter_le_of_imp {α : Type} {p q : α → Bool} (l : List α)
    (imp : ∀ a, p a → q a) : (l.filter p).length ≤ (l.filter q).length := by
  induction l with
  | nil => simp
  | cons a l ih =>
    by_cases hp : p a
    · simp [hp, imp a hp, ih]
    · by_cases hq : q a <;> simp [hp, hq] <;> omega

private theorem length_filter_lt_of_mem {α : Type} {p q : α → Bool} {l : List α} {a : α}
    (imp : ∀ a, p a → q a) (mem : a ∈ l) (hp : ¬ p a) (hq : q a) :
    (l.filter p).length < (l.filter q).length := by
  induction l with
  | nil => simp at mem
  | cons b l ih =>
    have le := length_filter_le_of_imp l imp
    rcases List.mem_cons.mp mem with rfl | mem
    · simp [hp, hq]
      omega
    · have lt := ih mem
      by_cases hb : p b
      · simp [hb, imp b hb, lt]
      · by_cases hb' : q b <;> simp [hb, hb'] <;> omega

theorem mem_names_of_find?_eq_some {table : TypeTable} {name : Text} {known : KnownType}
    (found : table.find? name = some known) : name ∈ table.names := by
  obtain ⟨entries, nodup⟩ := table
  simp only [find?, names] at *
  clear nodup
  induction entries with
  | nil => simp at found
  | cons e l ih =>
    obtain ⟨key, value⟩ := e
    rw [List.lookup_cons] at found
    split at found
    · next same => simp [eq_of_beq same]
    · simp [ih found]

/-- Only a known type that is no array has supertypes. -/
theorem known?_eq_some_of_supertypes_ne_nil {table : TypeTable} {ty : JavaType}
    (some_supertype : table.supertypes ty ≠ []) : ty = ⟨ty.element, 0⟩ ∧ ty.element ∈ table.names := by
  cases h : table.known? ty with
  | none => simp [supertypes, superclass?, interfaces, h] at some_supertype
  | some known =>
    simp only [known?] at h
    split at h
    · simp at h
    · next noArray =>
      refine ⟨?_, mem_names_of_find?_eq_some h⟩
      obtain ⟨element, dimensions⟩ := ty
      simp only [JavaType.isArray, decide_eq_true_eq, Nat.not_lt, Nat.le_zero_eq] at noArray
      simp [noArray]

theorem unseen_cons_le (table : TypeTable) (ty : JavaType) (seen : List JavaType) :
    table.unseen (ty :: seen) ≤ table.unseen seen := by
  apply length_filter_le_of_imp
  intro a
  simp only [List.mem_cons, decide_not, Bool.not_eq_eq_eq_not, Bool.not_true, decide_eq_false_iff_not]
  exact fun h m => h (Or.inr m)

theorem unseen_cons_lt {table : TypeTable} {name : Text} {seen : List JavaType}
    (isKnown : name ∈ table.names) (isNew : ⟨name, 0⟩ ∉ seen) :
    table.unseen (⟨name, 0⟩ :: seen) < table.unseen seen := by
  apply length_filter_lt_of_mem _ isKnown
  · simp
  · simpa using isNew
  · intro a
    simp only [List.mem_cons, decide_not, Bool.not_eq_eq_eq_not, Bool.not_true,
      decide_eq_false_iff_not]
    exact fun h m => h (Or.inr m)

/-- The types that can be reached from those that wait, superclasses before interfaces, added to
those already seen. -/
def reach (table : TypeTable) (seen : List JavaType) : List JavaType → List JavaType
  | [] => seen
  | ty :: waiting =>
    if ty ∈ seen then reach table seen waiting
    else reach table (ty :: seen) (table.supertypes ty ++ waiting)
termination_by waiting => (table.unseen seen, waiting.length)
decreasing_by
  · exact Prod.Lex.right _ (by simp)
  · next isNew =>
    by_cases leaf : table.supertypes ty = []
    · rw [leaf, List.nil_append]
      rcases Nat.lt_or_eq_of_le (table.unseen_cons_le ty seen) with less | same
      · exact Prod.Lex.left _ _ less
      · rw [same]
        exact Prod.Lex.right _ (by simp)
    · obtain ⟨plain, isKnown⟩ := known?_eq_some_of_supertypes_ne_nil leaf
      rw [plain] at isNew ⊢
      exact Prod.Lex.left _ _ (unseen_cons_lt isKnown isNew)

/-- A type with all its supertypes. -/
def lineage (table : TypeTable) (ty : JavaType) : List JavaType :=
  table.reach [] [ty]

/-- Whether a type or one of its supertypes declares a field or a method of this name. -/
def hasFieldOrMethod (table : TypeTable) (ty : JavaType) (name : Text) : Bool :=
  (table.lineage ty).any fun t =>
    (table.fields t).contains name || (table.methods t).any fun m => m.name == name

/-- Whether a type or one of its supertypes declares a method with this name and exactly these
parameter types. -/
def hasOverload (table : TypeTable) (ty : JavaType) (name : Text) (parameters : List JavaType) :
    Bool :=
  (table.lineage ty).any fun t => (table.methods t).contains ⟨name, parameters⟩

/-- Whether a type has a constructor with exactly these parameter types. Constructors are not
inherited. -/
def hasConstructor (table : TypeTable) (ty : JavaType) (parameters : List JavaType) : Bool :=
  (table.constructors ty).contains parameters

/-- Whether a direct supertype other than the type itself has a method with this name and exactly
these parameter types. -/
def overrides (table : TypeTable) (ty : JavaType) (name : Text) (parameters : List JavaType) :
    Bool :=
  ((table.supertypes ty).filter (· != ty)).any fun t => table.hasOverload t name parameters

/-- The common superclass of the exceptions that need no declaration. -/
def uncheckedRoot : Text := "java.lang.RuntimeException"

/-- Follow superclasses up to the common superclass of unchecked exceptions; an array, an end or a
type seen before has no such superclass. -/
def descendsFrom (table : TypeTable) (root : Text) (seen : List JavaType) (ty : JavaType) : Bool :=
  if ty.isArray || ty ∈ seen then false
  else if ty.element = root then true
  else
    match _h : table.superclass? ty with
    | none => false
    | some superclass => descendsFrom table root (ty :: seen) superclass
termination_by table.unseen seen
decreasing_by
  next isNew _ =>
  simp only [Bool.or_eq_true, decide_eq_true_eq, not_or] at isNew
  have leaf : table.supertypes ty ≠ [] := by simp [supertypes, _h]
  obtain ⟨plain, isKnown⟩ := known?_eq_some_of_supertypes_ne_nil leaf
  have fresh := isNew.2
  rw [plain] at fresh ⊢
  exact unseen_cons_lt isKnown fresh

/-- Whether an exception may be thrown without being declared. -/
def isUnchecked (table : TypeTable) (ty : JavaType) : Bool :=
  table.descendsFrom uncheckedRoot [] ty

end DocAudit.TypeTable
