import DocAudit.TypeTable.Hierarchy

/-!
What a table knows after its types are declared and changed. Whether a name is known depends on the
declared names alone, and each change is seen under its own name only.
-/

set_option autoImplicit false

namespace DocAudit.TypeTable

section Change

variable {table : TypeTable} {name key : Text} {change : KnownType → KnownType}
  {known : KnownType}

@[simp] theorem names_modify : (table.modify key change).names = table.names := by
  rw [names, modify, List.map_map]
  refine List.map_congr_left fun e _ => ?_
  rw [Function.comp_apply, apply_ite Prod.fst]
  exact ite_self _

theorem mem_names_insert :
    name ∈ (table.insert key known).names ↔ name ∈ table.names ∨ name = key := by
  unfold insert
  split
  · next isKnown =>
    rw [names_modify]
    constructor
    · exact Or.inl
    · rintro (member | rfl)
      · exact member
      · exact isKnown
  · simp [names]

theorem contains_iff_mem_names : table.contains name ↔ name ∈ table.names := by
  rw [contains, find?, List.lookup_isSome_iff, names, List.mem_map]
  constructor
  · rintro ⟨e, member, same⟩
    exact ⟨e, member, (eq_of_beq same).symm⟩
  · rintro ⟨e, member, rfl⟩
    exact ⟨e, member, beq_self_eq_true _⟩

theorem contains_declare {kind : DeclarationKind} :
    (table.declare key kind).contains name ↔ table.contains name ∨ name = key := by
  rw [contains_iff_mem_names, contains_iff_mem_names, declare, mem_names_insert]

/-- A change leaves the known names as they are. -/
theorem contains_modify : (table.modify key change).contains name = table.contains name := by
  rw [Bool.eq_iff_iff, contains_iff_mem_names, contains_iff_mem_names, names_modify]

private theorem lookup_map_change (entries : List (Text × KnownType)) :
    (entries.map fun e => if e.1 = key then (e.1, change e.2) else e).lookup name =
      if name = key then (entries.lookup name).map change else entries.lookup name := by
  induction entries with
  | nil => simp
  | cons e entries ih =>
    obtain ⟨first, known⟩ := e
    rw [List.map_cons]
    by_cases here : first = key
    · subst here
      rw [if_pos rfl, List.lookup_cons, List.lookup_cons, ih]
      by_cases same : name = first
      · simp [same]
      · simp [beq_false_of_ne same, same]
    · rw [if_neg here, List.lookup_cons, List.lookup_cons, ih]
      by_cases same : name = first
      · subst same
        simp [here]
      · simp [beq_false_of_ne same]

/-- A change is seen under its own name. -/
theorem find?_modify_self :
    (table.modify name change).find? name = (table.find? name).map change :=
  (lookup_map_change table.entries).trans (if_pos rfl)

/-- A change is not seen under another name. -/
theorem find?_modify_of_ne (other : name ≠ key) :
    (table.modify key change).find? name = table.find? name :=
  (lookup_map_change table.entries).trans (if_neg other)

private theorem lookup_append_of_not_mem {entries : List (Text × KnownType)}
    (absent : name ∉ entries.map Prod.fst) (rest : List (Text × KnownType)) :
    (entries ++ rest).lookup name = rest.lookup name := by
  have missing : entries.lookup name = none := List.lookup_eq_none_iff.mpr fun e member => by
    rw [bne_iff_ne]
    rintro rfl
    exact absent (List.mem_map.mpr ⟨e, member, rfl⟩)
  rw [List.lookup_append, missing, Option.none_or]

theorem find?_insert_self : (table.insert name known).find? name = some known := by
  unfold insert
  split
  · next isKnown =>
    obtain ⟨before, found⟩ := Option.isSome_iff_exists.mp (contains_iff_mem_names.mpr isKnown)
    rw [find?_modify_self, found]
    rfl
  · next isNew => exact (lookup_append_of_not_mem isNew _).trans List.lookup_cons_self

theorem find?_insert_of_ne (other : name ≠ key) :
    (table.insert key known).find? name = table.find? name := by
  unfold insert
  split
  · exact find?_modify_of_ne other
  · rw [find?, List.lookup_append, List.lookup_cons, beq_false_of_ne other]
    exact Option.or_none

end Change

section Run

variable {α : Type} {table : TypeTable} {name : Text} {a : α}
  (change : α → KnownType → KnownType)

/-- After a list of types is declared, their names are known, and those known before. -/
theorem mem_names_declareAll (types : List TypeDeclaration) :
    name ∈ (types.foldl (fun table t => table.declare t.binaryName t.kind) table).names ↔
      name ∈ table.names ∨ ∃ t ∈ types, t.binaryName = name := by
  induction types generalizing table with
  | nil => simp
  | cons t types ih =>
    rw [List.foldl_cons, ih, declare, mem_names_insert, or_assoc]
    simp only [List.mem_cons, exists_eq_or_imp, @eq_comm _ _ name]

/-- A list of changes leaves the known names as they are. -/
theorem contains_modifyAll (changes : List (Text × α)) :
    (changes.foldl (fun table e => table.modify e.1 (change e.2)) table).contains name =
      table.contains name := by
  induction changes generalizing table with
  | nil => rfl
  | cons e changes ih => rw [List.foldl_cons, ih, contains_modify]

theorem find?_modifyAll_of_not_mem {changes : List (Text × α)}
    (absent : name ∉ changes.map Prod.fst) :
    (changes.foldl (fun table e => table.modify e.1 (change e.2)) table).find? name =
      table.find? name := by
  induction changes generalizing table with
  | nil => rfl
  | cons e changes ih =>
    rw [List.map_cons, List.mem_cons, not_or] at absent
    rw [List.foldl_cons, ih absent.2, find?_modify_of_ne absent.1]

/-- In a list of changes to distinct types, each type sees exactly its own. -/
theorem find?_modifyAll {changes : List (Text × α)} (distinct : (changes.map Prod.fst).Nodup)
    (member : (name, a) ∈ changes) :
    (changes.foldl (fun table e => table.modify e.1 (change e.2)) table).find? name =
      (table.find? name).map (change a) := by
  induction changes generalizing table with
  | nil => simp at member
  | cons e changes ih =>
    obtain ⟨absent, distinct⟩ := List.nodup_cons.mp distinct
    rw [List.foldl_cons]
    rcases List.mem_cons.mp member with rfl | member
    · rw [find?_modifyAll_of_not_mem change absent, find?_modify_self]
    · have other : name ≠ e.1 := by
        rintro rfl
        exact absent (List.mem_map.mpr ⟨_, member, rfl⟩)
      rw [ih distinct member, find?_modify_of_ne other]

/-- In a list of changes each type sees those under its own name, in order. -/
theorem find?_modifyAll_eq (name : Text) (changes : List (Text × α)) (table : TypeTable) :
    (changes.foldl (fun table e => table.modify e.1 (change e.2)) table).find? name =
      (table.find? name).map fun known =>
        (changes.filter (·.1 == name)).foldl (fun known e => change e.2 known) known := by
  induction changes generalizing table with
  | nil => simp
  | cons e changes ih =>
    rw [List.foldl_cons, ih]
    by_cases same : e.1 = name
    · subst same
      have own : (e :: changes).filter (·.1 == e.1) = e :: changes.filter (·.1 == e.1) :=
        List.filter_cons_of_pos (beq_self_eq_true e.1)
      rw [find?_modify_self, Option.map_map, own]
      rfl
    · rw [find?_modify_of_ne (Ne.symm same), List.filter_cons_of_neg (by simpa using same)]

end Run

section Lineage

variable {table : TypeTable} {ty : JavaType}

private theorem mem_reach (seen waiting : List JavaType)
    (member : ty ∈ seen ∨ ty ∈ waiting) : ty ∈ table.reach seen waiting := by
  induction seen, waiting using reach.induct table with
  | case1 seen =>
    rw [reach]
    simpa using member
  | case2 seen other waiting isSeen ih =>
    rw [reach, if_pos isSeen]
    refine ih ?_
    rcases member with member | member
    · exact Or.inl member
    · rcases List.mem_cons.mp member with rfl | member
      · exact Or.inl isSeen
      · exact Or.inr member
  | case3 seen other waiting isNew ih =>
    rw [reach, if_neg isNew]
    refine ih ?_
    rcases member with member | member
    · exact Or.inl (List.mem_cons_of_mem other member)
    · rcases List.mem_cons.mp member with rfl | member
      · exact Or.inl List.mem_cons_self
      · exact Or.inr (List.mem_append_right _ member)

/-- A type belongs to its own lineage. -/
theorem self_mem_lineage : ty ∈ table.lineage ty :=
  mem_reach [] [ty] (Or.inr List.mem_cons_self)

/-- A type has the overloads that it declares itself. -/
theorem hasOverload_of_mem {name : Text} {parameters : List JavaType}
    (member : ⟨name, parameters⟩ ∈ table.methods ty) : table.hasOverload ty name parameters := by
  rw [hasOverload, List.any_eq_true]
  exact ⟨ty, self_mem_lineage, List.contains_iff_mem.mpr member⟩

end Lineage

end DocAudit.TypeTable
