import DocAudit.Proofs.Reference.Written
import DocAudit.Proofs.Traversal
import DocAudit.Proofs.TypeTable.Reachability

/-!
A reference is accepted exactly when what it names exists: its type, a member of the type or of a
supertype, or an overload whose argument types all exist.
-/

set_option autoImplicit false

namespace DocAudit

namespace Signature

/-- A parameter list has types exactly when every name in it stands for one. -/
theorem resolve_eq_ok_iff {scope : Scope} {table : TypeTable} {list : Text}
    {types : List JavaType} :
    resolve scope table list = .ok types ↔
      List.Forall₂ (fun name ty => scope.resolve? table name = some ty) (typeNames list) types := by
  rw [resolve, Traversal.mapM_eq_ok_iff]
  refine iff_of_eq (congrArg (List.Forall₂ · _ _) (funext₂ fun name ty => propext ?_))
  cases scope.resolve? table name with
  | none => simp
  | some ty' => simp

end Signature

namespace Reference

section Extract

private theorem extract_append {depth : Nat} {t : Text} (rest : Text)
    (inside : ∀ c ∈ t, c ≠ '(' ∧ c ≠ ')' ∧ (Text.isBlank c && depth == 0) = false) :
    extract depth (t ++ rest) = t ++ extract depth rest := by
  induction t with
  | nil => rfl
  | cons c t ih =>
    obtain ⟨⟨notOpen, notClose, stays⟩, others⟩ := List.forall_mem_cons.mp inside
    rw [List.cons_append, extract, if_neg notOpen, if_neg notClose, if_neg (by simp [stays]),
      ih others, List.cons_append]

/-- Text without white space and parentheses. -/
private def IsSolid (t : Text) : Prop :=
  ∀ c ∈ t, c ≠ '(' ∧ c ≠ ')' ∧ Text.isBlank c = false

private theorem IsPlain.isSolid {t : Text} (plain : IsPlain t) : IsSolid t := by
  intro c member
  obtain ⟨solid, -, notOpen, notClose⟩ := plain c member
  exact ⟨notOpen, notClose, solid⟩

private theorem IsSolid.path {t name : Text} (solid : IsSolid t) (solid' : IsSolid name) :
    IsSolid (t ++ '#' :: name) := by
  intro c member
  rcases List.mem_append.mp member with member | member
  · exact solid c member
  · rcases List.mem_cons.mp member with rfl | member
    · exact ⟨by decide, by decide, by decide⟩
    · exact solid' c member

private theorem IsSolid.extract_append {t : Text} (solid : IsSolid t) (rest : Text) :
    extract 0 (t ++ rest) = t ++ extract 0 rest := by
  refine Reference.extract_append rest fun c member => ?_
  obtain ⟨notOpen, notClose, blank⟩ := solid c member
  exact ⟨notOpen, notClose, by rw [blank, Bool.false_and]⟩

/-- A label does not belong to the reference. -/
private theorem extract_label {label : Text} (apart : ∀ c ∈ label.head?, Text.isBlank c) :
    extract 0 label = [] := by
  cases label with
  | nil => rfl
  | cons c label =>
    have blank : Text.isBlank c := apart c rfl
    have notParen : c ≠ '(' ∧ c ≠ ')' := not_paren_of_isBlank blank
    rw [extract, if_neg notParen.1, if_neg notParen.2, if_pos (by simp [blank])]

/-- What stands in parentheses belongs to the reference, white space included. -/
private theorem extract_parens {list : Text} (rest : Text)
    (noParens : ∀ c ∈ list, c ≠ '(' ∧ c ≠ ')') :
    extract 0 ('(' :: list ++ ')' :: rest) = '(' :: list ++ ')' :: extract 0 rest := by
  have inner : ∀ c ∈ list, c ≠ '(' ∧ c ≠ ')' ∧ (Text.isBlank c && 1 == 0) = false := by
    intro c member
    exact ⟨(noParens c member).1, (noParens c member).2, Bool.and_false _⟩
  rw [List.cons_append, extract, if_pos rfl, Reference.extract_append _ inner]
  rfl

/-- The text starts and ends with no white space and is read as far as a label after it. -/
private structure IsRead (reference : Text) : Prop where
  ne_nil : reference ≠ []
  first : ∀ c ∈ reference.head?, ¬ Text.isBlank c
  last : ∀ c ∈ reference.getLast?, ¬ Text.isBlank c
  extract : ∀ label : Text, (∀ c ∈ label.head?, Text.isBlank c) →
    Reference.extract 0 (reference ++ label) = reference

private theorem IsSolid.isRead {t : Text} (solid : IsSolid t) (ne_nil : t ≠ []) : IsRead t where
  ne_nil := ne_nil
  first := fun c found => by simp [(solid c (List.mem_of_head? found)).2.2]
  last := fun c found => by simp [(solid c (List.mem_of_getLast? found)).2.2]
  extract := fun label apart => by
    rw [solid.extract_append, extract_label apart, List.append_nil]

private theorem IsSolid.isRead_parens {t list : Text} (solid : IsSolid t) (ne_nil : t ≠ [])
    (noParens : ∀ c ∈ list, c ≠ '(' ∧ c ≠ ')') : IsRead (t ++ '(' :: list ++ [')']) where
  ne_nil := by simp
  first := by
    intro c found
    rw [List.append_assoc, List.head?_append_of_ne_nil _ ne_nil] at found
    exact (solid.isRead ne_nil).first c found
  last := by
    intro c found
    rw [List.getLast?_append_of_ne_nil _ (by simp)] at found
    obtain rfl := Option.some.inj found
    decide
  extract := by
    intro label apart
    have whole : t ++ '(' :: list ++ [')'] ++ label = t ++ ('(' :: list ++ ')' :: label) := by simp
    rw [whole, solid.extract_append, extract_parens _ noParens, extract_label apart]
    simp

private theorem Written.Valid.isRead {written : Written} (valid : written.Valid) :
    IsRead written.text := by
  cases written with
  | type t => exact valid.2.isSolid.isRead valid.1
  | member t name => exact (valid.1.isSolid.path valid.2.isSolid).isRead (by simp)
  | overload t name blank arguments =>
    obtain ⟨plain, plain', isBlank, isArgument⟩ := valid
    exact (plain.isSolid.path plain'.isSolid).isRead_parens (by simp)
      (not_paren_of_mem_argumentsText isBlank isArgument)

/-- The reference is found at the start of an argument. -/
theorem Written.Valid.extract_trim {written : Written} (valid : written.Valid) {label : Text}
    (apart : ∀ c ∈ label.head?, Text.isBlank c) :
    extract 0 (Text.trim (written.text ++ label)) = written.text := by
  have read := valid.isRead
  rw [Text.trim_append label read.ne_nil read.first read.last]
  refine read.extract _ fun c found => ?_
  obtain ⟨rest, split⟩ := Text.exists_trimRight label
  cases kept : Text.trimRight label with
  | nil => simp [kept] at found
  | cons first tail =>
    rw [kept] at split found
    refine apart c ?_
    rw [split]
    exact found

end Extract

section Check

variable {scope : Scope} {table : TypeTable} {own tag argument reference type member name : Text}

private theorem check_eq_ok_of_type (read : extract 0 argument.trim = reference)
    (ne_nil : reference ≠ []) (cut : reference.cutFirst? (· == '#') = none) :
    check scope table own tag argument = .ok () ↔ (scope.resolve? table reference).isSome := by
  have notEmpty : reference.isEmpty = false := by simpa using ne_nil
  simp only [check, read, notEmpty, cut, Bool.false_eq_true, if_false]
  cases scope.resolve? table reference with
  | none => simp [throw, throwThe, MonadExceptOf.throw]
  | some ty => simp [pure, Except.pure]

private theorem check_eq_ok_of_member (read : extract 0 argument.trim = reference)
    (cut : reference.cutFirst? (· == '#') = some (type, member)) :
    check scope table own tag argument = .ok () ↔
      ∃ ty, scope.resolve? table (if type.isEmpty then own else type) = some ty ∧
        match member.cutFirst? (· == '(') with
        | some (name, list) => checkOverload scope table tag ty member name list = .ok ()
        | none => table.hasFieldOrMethod ty member := by
  have notEmpty : reference.isEmpty = false := by
    obtain ⟨c, -, split, -⟩ := Text.cutFirst?_eq_some_iff.mp cut
    simp [split]
  simp only [check, read, notEmpty, cut, Bool.false_eq_true, if_false]
  cases scope.resolve? table (if type.isEmpty then own else type) with
  | none => simp [throw, throwThe, MonadExceptOf.throw]
  | some ty =>
    cases member.cutFirst? (· == '(') with
    | some parts => simp
    | none => cases table.hasFieldOrMethod ty member <;>
        simp [throw, throwThe, MonadExceptOf.throw, pure, Except.pure]

private theorem checkOverload_eq_ok_iff {ty : JavaType} {list parameters rest : Text}
    (cut : list.cutFirst? (· == ')') = some (parameters, rest)) (trimmed : name.trim = name) :
    checkOverload scope table tag ty member name list = .ok () ↔
      ∃ types, Signature.resolve scope table parameters = .ok types ∧
        if name = ty.simpleName then types ∈ table.constructors ty
        else table.hasOverload ty name types := by
  simp only [checkOverload, cut, trimmed]
  cases Signature.resolve scope table parameters with
  | error e => simp [bind, Except.bind]
  | ok types =>
    simp only [bind, Except.bind, Except.ok.injEq, exists_eq_left', ← List.contains_iff_mem,
      ← TypeTable.hasConstructor.eq_1]
    split
    · cases table.hasConstructor ty types <;>
        simp [throw, throwThe, MonadExceptOf.throw, pure, Except.pure]
    · cases table.hasOverload ty name types <;>
        simp [throw, throwThe, MonadExceptOf.throw, pure, Except.pure]

end Check

namespace Written

variable {scope : Scope} {table : TypeTable} {own : Text} {written : Written}

/-- What the reference names exists. A method may be declared in a supertype, a constructor of the
type's own simple name may not. -/
def HasTarget (scope : Scope) (table : TypeTable) (own : Text) : Written → Prop
  | type t => ∃ ty, scope.resolve? table t = some ty
  | member t name =>
    ∃ ty, scope.resolve? table (if t.isEmpty then own else t) = some ty ∧
      ∃ super, table.Reaches ty super ∧
        (name ∈ table.fields super ∨ ∃ m ∈ table.methods super, m.name = name)
  | overload t name _ arguments =>
    ∃ ty types, scope.resolve? table (if t.isEmpty then own else t) = some ty ∧
      List.Forall₂ (fun a ty => scope.resolve? table a.type = some ty) arguments types ∧
      if name = ty.simpleName then types ∈ table.constructors ty
      else ∃ super, table.Reaches ty super ∧ ⟨name, types⟩ ∈ table.methods super

private theorem cutFirst?_sign {t member : Text} (plain : IsPlain t) :
    Text.cutFirst? (· == '#') (t ++ '#' :: member) = some (t, member) := by
  refine Text.cutFirst?_eq_some_iff.mpr ⟨'#', rfl, rfl, ?_⟩
  intro c inside
  simpa using (plain c inside).2.1

private theorem cutFirst?_open {name list : Text} (plain : IsPlain name) :
    Text.cutFirst? (· == '(') (name ++ '(' :: list) = some (name, list) := by
  refine Text.cutFirst?_eq_some_iff.mpr ⟨'(', rfl, rfl, ?_⟩
  intro c inside
  simpa using (plain c inside).2.2.1

private theorem checkOverload_eq_ok_iff_hasTarget {tag name blank : Text} {ty : JavaType}
    {arguments : List Argument} (plain : IsPlain name) (isBlank : ∀ c ∈ blank, Text.isBlank c)
    (valid : ∀ a ∈ arguments, a.Valid) (member : Text) :
    checkOverload scope table tag ty member name (argumentsText blank arguments ++ [')']) = .ok () ↔
      ∃ types, List.Forall₂ (fun a ty => scope.resolve? table a.type = some ty) arguments types ∧
        if name = ty.simpleName then types ∈ table.constructors ty
        else ∃ super, table.Reaches ty super ∧ ⟨name, types⟩ ∈ table.methods super := by
  have noParens := not_paren_of_mem_argumentsText isBlank valid
  have cut : Text.cutFirst? (· == ')') (argumentsText blank arguments ++ [')']) =
      some (argumentsText blank arguments, []) :=
    Text.cutFirst?_eq_some_iff.mpr ⟨')', rfl, rfl, fun c inside => by
      simpa using (noParens c inside).2⟩
  have trimmed : name.trim = name := Text.trim_eq_self fun c inside => by simp [(plain c inside).1]
  rw [checkOverload_eq_ok_iff cut trimmed]
  simp only [Signature.resolve_eq_ok_iff, typeNames_argumentsText isBlank valid,
    List.forall₂_map_left_iff, TypeTable.hasOverload_eq_true_iff]

/-- A reference is accepted exactly when what it names exists, whatever label follows it. -/
theorem check_eq_ok_iff_hasTarget (valid : written.Valid) (tag : Text) {label : Text}
    (apart : ∀ c ∈ label.head?, Text.isBlank c) :
    check scope table own tag (written.text ++ label) = .ok () ↔
      written.HasTarget scope table own := by
  have read := valid.extract_trim apart
  cases written with
  | type t =>
    have cut : Text.cutFirst? (· == '#') t = none :=
      Text.cutFirst?_eq_none_iff.mpr fun c inside => by simpa using (valid.2 c inside).2.1
    rw [check_eq_ok_of_type read valid.1 cut, Option.isSome_iff_exists, HasTarget, Written.text]
  | member t name =>
    have noParen : Text.cutFirst? (· == '(') name = none :=
      Text.cutFirst?_eq_none_iff.mpr fun c inside => by simpa using (valid.2 c inside).2.2.1
    rw [check_eq_ok_of_member read (cutFirst?_sign valid.1), noParen, HasTarget]
    simp only [TypeTable.hasFieldOrMethod_eq_true_iff]
  | overload t name blank arguments =>
    obtain ⟨plain, plain', isBlank, isArgument⟩ := valid
    have whole : Written.text (.overload t name blank arguments) =
        t ++ '#' :: (name ++ '(' :: (argumentsText blank arguments ++ [')'])) := by
      simp [Written.text]
    rw [check_eq_ok_of_member read (whole ▸ cutFirst?_sign plain), cutFirst?_open plain']
    simp only [checkOverload_eq_ok_iff_hasTarget plain' isBlank isArgument, HasTarget]
    constructor
    · rintro ⟨ty, found, types, isTypes, declared⟩
      exact ⟨ty, types, found, isTypes, declared⟩
    · rintro ⟨ty, types, found, isTypes, declared⟩
      exact ⟨ty, found, types, isTypes, declared⟩

/-- Two types that extend each other, one of which has a method. -/
def shapes : TypeTable :=
  (((((TypeTable.empty.declare "geo.Shape" .classType).declare "geo.Circle" .classType).declare
    "java.lang.String" .classType).setSuperclass "geo.Circle" "geo.Shape").setSuperclass
    "geo.Shape" "geo.Circle").addMethod "geo.Shape" "draw" [⟨"int", 1⟩, ⟨"java.lang.String", 0⟩]

/-- A method of the supertype, with a name and uneven white space in its list of arguments. -/
def inheritedDraw : Written :=
  .overload "Circle" "draw" " "
    [⟨[], "int[]", some (" ", "sizes"), []⟩, ⟨"\n ", "String", none, " "⟩]

/-- The inherited method is found for `Circle#draw( int[] sizes,\n String ) of a (round) shape`. -/
theorem check_inheritedDraw :
    check ⟨"geo", "geo.Page", []⟩ shapes "geo.Page" "see"
      (inheritedDraw.text ++ " of a (round) shape") = .ok () := by
  have blank : ∀ gap : Text, gap.isAllBlank → ∀ c ∈ gap, Text.isBlank c := fun _ =>
    List.all_eq_true.mp
  have valid : inheritedDraw.Valid := by
    refine ⟨by decide, by decide, blank " " (by decide), ?_⟩
    refine List.forall_mem_cons.mpr ⟨?_, List.forall_mem_singleton.mpr ?_⟩
    · refine ⟨blank [] rfl, by decide, ?_, blank [] rfl⟩
      rintro part ⟨⟩
      exact ⟨by decide, blank " " (by decide), by decide⟩
    · exact ⟨blank "\n " (by decide), by decide, by rintro part ⟨⟩, blank " " (by decide)⟩
  have apart : ∀ c ∈ (" of a (round) shape" : Text).head?, Text.isBlank c := by
    rintro c ⟨⟩
    decide
  have declared : ⟨"draw", [⟨"int", 1⟩, ⟨"java.lang.String", 0⟩]⟩ ∈
      shapes.methods ⟨"geo.Shape", 0⟩ := by decide
  have leads : shapes.Reaches ⟨"geo.Circle", 0⟩ ⟨"geo.Shape", 0⟩ :=
    Relation.ReflTransGen.single (by decide)
  refine (check_eq_ok_iff_hasTarget valid "see" apart).mpr ?_
  refine ⟨⟨"geo.Circle", 0⟩, [⟨"int", 1⟩, ⟨"java.lang.String", 0⟩], by decide, ?_, ?_⟩
  · exact .cons (by decide) (.cons (by decide) .nil)
  · rw [if_neg (by decide)]
    exact ⟨_, leads, declared⟩

end Written

end Reference

end DocAudit
