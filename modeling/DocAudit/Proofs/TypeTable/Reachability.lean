import DocAudit.Proofs.TypeTable.Lookup
import Mathlib.Logic.Function.Iterate
import Mathlib.Logic.Relation

/-!
The search of a hierarchy finds exactly the types that superclasses and interfaces lead to, cyclic
and incomplete hierarchies included, and so do the members that it looks for. It sees each type once
and ends.
-/

set_option autoImplicit false

namespace DocAudit.TypeTable

variable {table : TypeTable} {ty : JavaType}

/-- Superclasses and interfaces lead from the first type to the second, which may be the same. -/
def Reaches (table : TypeTable) : JavaType → JavaType → Prop :=
  Relation.ReflTransGen fun a b => b ∈ table.supertypes a

private theorem mem_or_reaches_of_mem_reach (seen waiting : List JavaType)
    (found : ty ∈ table.reach seen waiting) :
    ty ∈ seen ∨ ∃ start ∈ waiting, table.Reaches start ty := by
  induction seen, waiting using reach.induct table with
  | case1 seen =>
    rw [reach] at found
    exact Or.inl found
  | case2 seen next waiting isSeen ih =>
    rw [reach, if_pos isSeen] at found
    rcases ih found with member | ⟨start, member, leads⟩
    · exact Or.inl member
    · exact Or.inr ⟨start, List.mem_cons_of_mem next member, leads⟩
  | case3 seen next waiting isNew ih =>
    rw [reach, if_neg isNew] at found
    rcases ih found with member | ⟨start, member, leads⟩
    · rcases List.mem_cons.mp member with rfl | member
      · exact Or.inr ⟨ty, List.mem_cons_self, Relation.ReflTransGen.refl⟩
      · exact Or.inl member
    · rcases List.mem_append.mp member with edge | member
      · exact Or.inr ⟨next, List.mem_cons_self, Relation.ReflTransGen.head edge leads⟩
      · exact Or.inr ⟨start, List.mem_cons_of_mem next member, leads⟩

/-- What is seen never leads outside of what is seen or still waits. -/
private theorem reach_closed (seen waiting : List JavaType)
    (closed : ∀ a ∈ seen, ∀ b ∈ table.supertypes a, b ∈ seen ∨ b ∈ waiting) :
    ∀ a ∈ table.reach seen waiting, ∀ b ∈ table.supertypes a, b ∈ table.reach seen waiting := by
  induction seen, waiting using reach.induct table with
  | case1 seen =>
    rw [reach]
    intro a member b edge
    simpa using closed a member b edge
  | case2 seen next waiting isSeen ih =>
    rw [reach, if_pos isSeen]
    refine ih ?_
    intro a member b edge
    rcases closed a member b edge with member | member
    · exact Or.inl member
    · rcases List.mem_cons.mp member with rfl | member
      · exact Or.inl isSeen
      · exact Or.inr member
  | case3 seen next waiting isNew ih =>
    rw [reach, if_neg isNew]
    refine ih ?_
    intro a member b edge
    rcases List.mem_cons.mp member with rfl | member
    · exact Or.inr (List.mem_append_left waiting edge)
    · rcases closed a member b edge with member | member
      · exact Or.inl (List.mem_cons_of_mem next member)
      · rcases List.mem_cons.mp member with rfl | member
        · exact Or.inl List.mem_cons_self
        · exact Or.inr (List.mem_append_right _ member)

/-- The lineage of a type holds exactly the types that it leads to. -/
theorem mem_lineage_iff {super : JavaType} : super ∈ table.lineage ty ↔ table.Reaches ty super := by
  constructor
  · intro found
    rcases mem_or_reaches_of_mem_reach [] [ty] found with member | ⟨start, member, leads⟩
    · exact absurd member List.not_mem_nil
    · obtain rfl := List.mem_singleton.mp member
      exact leads
  · intro leads
    have closed : ∀ a ∈ table.lineage ty, ∀ b ∈ table.supertypes a, b ∈ table.lineage ty :=
      reach_closed [] [ty] (by simp)
    induction leads with
    | refl => exact self_mem_lineage
    | tail _ edge ih => exact closed _ ih _ edge

/-- A field or method is found exactly where the type or a supertype declares it. -/
theorem hasFieldOrMethod_eq_true_iff {name : Text} :
    table.hasFieldOrMethod ty name ↔ ∃ super, table.Reaches ty super ∧
      (name ∈ table.fields super ∨ ∃ m ∈ table.methods super, m.name = name) := by
  simp only [hasFieldOrMethod, List.any_eq_true, mem_lineage_iff, Bool.or_eq_true,
    List.contains_iff_mem, beq_iff_eq]

/-- An overload is found exactly where the type or a supertype declares it. -/
theorem hasOverload_eq_true_iff {name : Text} {parameters : List JavaType} :
    table.hasOverload ty name parameters ↔ ∃ super, table.Reaches ty super ∧
      ⟨name, parameters⟩ ∈ table.methods super := by
  simp only [hasOverload, List.any_eq_true, mem_lineage_iff, List.contains_iff_mem]

/-- A search on its way: the types that it has seen, and those that wait. -/
structure Search where
  seen : List JavaType
  waiting : List JavaType

/-- One turn of a search. The first type that waits is passed over if it was seen before; else it is
seen now, and its supertypes wait before the others. -/
def Search.turn (table : TypeTable) (search : Search) : Search :=
  match search.waiting with
  | [] => search
  | ty :: rest =>
    if ty ∈ search.seen then ⟨search.seen, rest⟩
    else ⟨ty :: search.seen, table.supertypes ty ++ rest⟩

/-- The superclasses and interfaces that types name, one after another. -/
def edges (table : TypeTable) (types : List JavaType) : List JavaType :=
  types.flatMap table.supertypes

/-- A search comes to its end. Each turn takes one of the types that wait, and each type seen adds
its supertypes to them once. -/
private theorem exists_turns (table : TypeTable) (seen waiting : List JavaType) :
    ∃ n, n + (table.edges seen).length =
        waiting.length + (table.edges (table.reach seen waiting)).length ∧
      (Search.turn table)^[n] ⟨seen, waiting⟩ = ⟨table.reach seen waiting, []⟩ := by
  induction seen, waiting using reach.induct table with
  | case1 seen =>
    rw [reach]
    exact ⟨0, rfl, rfl⟩
  | case2 seen next waiting isSeen ih =>
    obtain ⟨n, count, ends⟩ := ih
    have turn : Search.turn table ⟨seen, next :: waiting⟩ = ⟨seen, waiting⟩ := if_pos isSeen
    rw [reach, if_pos isSeen]
    refine ⟨n + 1, ?_, ?_⟩
    · rw [List.length_cons]
      omega
    · rw [Function.iterate_succ_apply, turn, ends]
  | case3 seen next waiting isNew ih =>
    obtain ⟨n, count, ends⟩ := ih
    have turn : Search.turn table ⟨seen, next :: waiting⟩ =
        ⟨next :: seen, table.supertypes next ++ waiting⟩ := if_neg isNew
    have more : (table.edges (next :: seen)).length =
        (table.supertypes next).length + (table.edges seen).length := by
      simp [edges]
    rw [reach, if_neg isNew]
    rw [more, List.length_append] at count
    refine ⟨n + 1, ?_, ?_⟩
    · rw [List.length_cons]
      omega
    · rw [Function.iterate_succ_apply, turn, ends]

private theorem nodup_reach (seen waiting : List JavaType) (nodup : seen.Nodup) :
    (table.reach seen waiting).Nodup := by
  induction seen, waiting using reach.induct table with
  | case1 seen => rwa [reach]
  | case2 seen next waiting isSeen ih =>
    rw [reach, if_pos isSeen]
    exact ih nodup
  | case3 seen next waiting isNew ih =>
    rw [reach, if_neg isNew]
    exact ih (List.nodup_cons.mpr ⟨isNew, nodup⟩)

/-- In any hierarchy a search ends, after one turn for the type where it starts and one for every
superclass and interface that a type it sees names. It sees every type that these lead to, and each
once; so it finds a field, a method or an overload exactly where one of those types declares it. -/
theorem search_finds_reachable (table : TypeTable) (ty : JavaType) :
    (Search.turn table)^[1 + (table.edges (table.lineage ty)).length] ⟨[], [ty]⟩ =
      ⟨table.lineage ty, []⟩ ∧
    (table.lineage ty).Nodup ∧
    (∀ super, super ∈ table.lineage ty ↔ table.Reaches ty super) ∧
    (∀ name, table.hasFieldOrMethod ty name ↔ ∃ super, table.Reaches ty super ∧
      (name ∈ table.fields super ∨ ∃ m ∈ table.methods super, m.name = name)) ∧
    ∀ name parameters, table.hasOverload ty name parameters ↔ ∃ super, table.Reaches ty super ∧
      ⟨name, parameters⟩ ∈ table.methods super := by
  refine ⟨?_, nodup_reach [] [ty] List.nodup_nil, fun super => mem_lineage_iff,
    fun name => hasFieldOrMethod_eq_true_iff, fun name parameters => hasOverload_eq_true_iff⟩
  obtain ⟨n, count, ends⟩ := exists_turns table [] [ty]
  have same : n = 1 + (table.edges (table.lineage ty)).length := count
  rw [← same]
  exact ends

end DocAudit.TypeTable
