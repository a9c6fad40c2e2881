import DocAudit.Java.Outline
import DocAudit.Proofs.Java.Items
import Mathlib.Data.List.Forall2

/-!
The members of the types in a Java source are those that its declarations declare. What stands in
the body of a type belongs to that type, however types and members are mixed and nested.
-/

set_option autoImplicit false

namespace DocAudit

/-- The names that the declaration of a field joins. -/
def Declaration.fieldNames (d : Declaration) : List Text :=
  (d.name.splitOn ',').map Text.trimLeft

/-- The members that a declaration declares. -/
def Declaration.members (d : Declaration) : List Member :=
  match d.kind with
  | .method => [.method d.name (d.parameters.map (·.type)) d.typeVariables]
  | .constructor => [.constructor (d.parameters.map (·.type)) d.typeVariables]
  | .field => d.fieldNames.map .field
  | _ => []

namespace Member

/-- The parameter types and type variables of a constructor. -/
def constructor? : Member → Option (List Text × List TypeVariable)
  | constructor parameters typeVariables => some (parameters, typeVariables)
  | _ => none

/-- The name, parameter types and type variables of a method. -/
def method? : Member → Option (Text × List Text × List TypeVariable)
  | method name parameters typeVariables => some (name, parameters, typeVariables)
  | _ => none

/-- The name of a field. -/
def field? : Member → Option Text
  | field name => some name
  | _ => none

end Member

namespace Java.Item

/-- The bodies of the types of a run of items, in the order of the types. -/
def bodies : List Item → List (List Item)
  | [] => []
  | type _ _ _ body :: rest => body :: (bodies body ++ bodies rest)
  | _ :: rest => bodies rest
termination_by items => sizeOf items

section Names

private theorem trimLeft_gap {gap name : Text} (blank : ∀ c ∈ gap, Text.isBlank c)
    (isName : IsName name) : Text.trimLeft (gap ++ name) = name := by
  have front : Text.trimLeft gap = [] := List.dropWhile_eq_nil_iff.mpr blank
  rw [Text.trimLeft_append, front, if_pos List.isEmpty_nil]
  cases name with
  | nil => rfl
  | cons c name => exact List.dropWhile_cons_of_neg (by simp [isName.solid c List.mem_cons_self])

/-- The names of a field are read back from the text that joins them. -/
private theorem splitOn_join (gap : Text) {names : List Text} (blank : ∀ c ∈ gap, Text.isBlank c)
    (some : names ≠ []) (areNames : ∀ name ∈ names, IsName name) :
    ((gap ++ Text.join ", " names).splitOn ',').map Text.trimLeft = names := by
  induction names generalizing gap with
  | nil => exact absurd rfl some
  | cons name names ih =>
    obtain ⟨isName, others⟩ := List.forall_mem_cons.mp areNames
    have plain : ∀ c ∈ gap ++ name, (c == ',') = false := by
      intro c member
      rcases List.mem_append.mp member with among | among
      · exact beq_eq_false_iff_ne.mpr fun comma => absurd (blank c among) (by rw [comma]; decide)
      · exact beq_eq_false_iff_ne.mpr (isName.ne_comma among)
    cases names with
    | nil =>
      have whole : Text.join ", " [name] = name := List.append_nil name
      rw [whole, List.splitOn, List.splitOnP_eq_singleton plain, List.map_singleton,
        trimLeft_gap blank isName]
    | cons next names =>
      have whole : gap ++ Text.join ", " (name :: next :: names) =
          (gap ++ name) ++ ',' :: ([' '] ++ Text.join ", " (next :: names)) := by
        simp [Text.join, List.intercalate]
      have space : ∀ c ∈ [' '], Text.isBlank c := List.forall_mem_singleton.mpr (by decide)
      rw [whole, List.splitOn, List.splitOnP_append_cons_of_forall_mem plain _ rfl,
        List.map_cons, trimLeft_gap blank isName]
      exact congrArg _ (ih [' '] space (List.cons_ne_nil next names) others)

end Names

section Owners

variable {s : Surroundings} {before items : List Item} {owner : Text}

/-- The members that the declarations of one type declare. -/
def owned (owner : Text) (declarations : List Declaration) : List Member :=
  (declarations.filter fun d => d.owner == owner).flatMap Declaration.members

private theorem owned_append (declarations more : List Declaration) :
    owned owner (declarations ++ more) = owned owner declarations ++ owned owner more := by
  simp only [owned, List.filter_append, List.flatMap_append]

private theorem owned_cons (d : Declaration) (declarations : List Declaration) :
    owned owner (d :: declarations) =
      (if d.owner = owner then d.members else []) ++ owned owner declarations := by
  rw [owned, List.filter_cons]
  by_cases same : d.owner = owner
  · rw [if_pos (beq_iff_eq.mpr same), if_pos same]
    rfl
  · rw [if_neg (by simpa using same), if_neg same]
    rfl

private theorem owned_cons_of_ne {d : Declaration} (other : d.owner ≠ owner)
    (declarations : List Declaration) : owned owner (d :: declarations) = owned owner declarations := by
  rw [owned_cons, if_neg other, List.nil_append]

private theorem members_cons (item : Item) (items : List Item) :
    members (item :: items) = members [item] ++ members items := by
  simp only [members, List.flatMap_cons, List.flatMap_nil, List.append_nil]

/-- A member among the items is declared by one declaration, which belongs where the items do. -/
private theorem owned_member {d : Declaration} {item : Item} {declarations : List Declaration}
    (place : d.owner = s.owner) (same : d.members = members [item]) (isMember : item.isMember)
    (later : owned owner declarations =
      if s.owner = owner then members (items.filter Item.isMember) else []) :
    owned owner (d :: declarations) =
      if s.owner = owner then members ((item :: items).filter Item.isMember) else [] := by
  rw [owned_cons, same, place, later, List.filter_cons_of_pos isMember]
  split_ifs
  · exact (members_cons _ _).symm
  · rfl

private theorem members_declareType {line : Nat} {modifiers : Modifiers} {header : TypeHeader}
    (proper : header.Proper) : (declareType s before line modifiers header).members = [] := by
  have kind : (declareType s before line modifiers header).kind.isMember = false := proper.kind
  unfold Declaration.members
  split
  all_goals simp_all [DeclarationKind.isMember]

private theorem members_declareCallable (line : Nat) (modifiers : Modifiers)
    (header : CallableHeader) : (declareCallable s before line modifiers header).members =
      members [callable line modifiers header] := by
  obtain ⟨name, typeVariables, parameters, throws, result⟩ := header
  cases result with
  | none => rfl
  | some result => rfl

private theorem members_declare_field {line : Nat} {modifiers : Modifiers} {names : List Text}
    (some : names ≠ []) (areNames : ∀ name ∈ names, IsName name) :
    (declare s before .field (Text.join ", " names) line modifiers).members =
      members [field line modifiers names] := by
  have read : ((Text.join ", " names).splitOn ',').map Text.trimLeft = names :=
    splitOn_join [] (fun c member => absurd member List.not_mem_nil) some areNames
  have joined : (declare s before .field (Text.join ", " names) line modifiers).members =
      (((Text.join ", " names).splitOn ',').map Text.trimLeft).map .field := rfl
  rw [joined, read]
  exact (List.append_nil _).symm

private theorem types_cons {item : Item} {rest : List Item}
    (notType : ∀ line modifiers header body, item ≠ type line modifiers header body) :
    types s (item :: rest) = types s rest ∧ bodies (item :: rest) = bodies rest := by
  cases item with
  | type line modifiers header body => exact (notType line modifiers header body rfl).elim
  | _ => simp only [types, bodies, and_self]

/-- The declarations whose owner is none of the types among the items stand among the items
themselves. -/
private theorem owned_declarations (proper : Proper items)
    (absent : ∀ t ∈ types s items, t.binaryName ≠ owner) :
    owned owner (declarations s before items) =
      if s.owner = owner then members (items.filter isMember) else [] := by
  fun_induction declarations s before items with
  | case1 => split_ifs <;> rfl
  | case2 s before line modifiers header body rest ihBody ihRest =>
    simp only [Proper] at proper
    simp only [types, List.cons_append, List.forall_mem_cons, List.forall_mem_append] at absent
    obtain ⟨isProper, properBody, properRest⟩ := proper
    obtain ⟨other, absentBody, absentRest⟩ := absent
    have elsewhere : (s.enter header).owner ≠ owner := other
    rw [owned_append, owned_cons, members_declareType isProper, ihBody properBody absentBody,
      if_neg elsewhere, ihRest properRest absentRest, ite_self]
    rfl
  | case3 s before line modifiers header rest ih =>
    simp only [types] at absent
    exact owned_member rfl (members_declareCallable line modifiers header) rfl
      (ih proper.tail absent)
  | case4 s before line modifiers names rest ih =>
    simp only [Proper] at proper
    simp only [types] at absent
    exact owned_member rfl (members_declare_field proper.1.1 proper.1.2) rfl (ih proper.2 absent)
  | case5 s before item rest notType notCallable notField ih =>
    have other : item.isMember = false := by
      cases item with
      | callable line modifiers header => exact (notCallable line modifiers header rfl).elim
      | field line modifiers names => exact (notField line modifiers names rfl).elim
      | _ => rfl
    rw [(types_cons notType).1] at absent
    rw [ih proper.tail absent, List.filter_cons_of_neg (by simp [other])]

/-- Every declaration belongs to one of the types, or stands among the items themselves. -/
theorem owner_of_mem_declarations {d : Declaration}
    (found : d ∈ declarations s before items) :
    (∃ t ∈ types s items, t.binaryName = d.owner) ∨
      d.owner = s.owner ∧ ∃ item ∈ items, item.isMember := by
  fun_induction declarations s before items with
  | case1 => exact absurd found List.not_mem_nil
  | case2 s before line modifiers header body rest ihBody ihRest =>
    simp only [types, List.cons_append, List.exists_mem_cons_iff]
    rcases List.mem_append.mp found with found | found
    · rcases List.mem_cons.mp found with rfl | found
      · exact Or.inl (Or.inl rfl)
      · rcases ihBody found with ⟨t, within, same⟩ | ⟨own, -⟩
        · exact Or.inl (Or.inr ⟨t, List.mem_append_left _ within, same⟩)
        · exact Or.inl (Or.inl own.symm)
    · rcases ihRest found with ⟨t, within, same⟩ | ⟨own, among⟩
      · exact Or.inl (Or.inr ⟨t, List.mem_append_right _ within, same⟩)
      · exact Or.inr ⟨own, Or.inr among⟩
  | case3 s before line modifiers header rest ih =>
    rw [(types_cons (by simp)).1, List.exists_mem_cons_iff]
    rcases List.mem_cons.mp found with rfl | found
    · exact Or.inr ⟨rfl, Or.inl rfl⟩
    · exact (ih found).imp_right (And.imp_right Or.inr)
  | case4 s before line modifiers names rest ih =>
    rw [(types_cons (by simp)).1, List.exists_mem_cons_iff]
    rcases List.mem_cons.mp found with rfl | found
    · exact Or.inr ⟨rfl, Or.inl rfl⟩
    · exact (ih found).imp_right (And.imp_right Or.inr)
  | case5 s before item rest notType _ _ ih =>
    rw [(types_cons notType).1, List.exists_mem_cons_iff]
    exact (ih found).imp_right (And.imp_right Or.inr)

private theorem length_bodies (s : Surroundings) (items : List Item) :
    (types s items).length = (bodies items).length := by
  fun_induction types s items with
  | case1 => simp only [bodies, List.length_nil]
  | case2 s line modifiers header body rest ihBody ihRest =>
    simp only [bodies, List.cons_append, List.length_cons, List.length_append, ihBody, ihRest]
  | case3 s item rest notType ih => rw [ih, (types_cons (s := s) notType).2]

/-- A name that is none of a type among the items, nor of one whose members they are, owns none of
their declarations. -/
private theorem owned_elsewhere (proper : Proper items)
    (apart : s.owner = owner → ∀ item ∈ items, item.isMember = false)
    (absent : ((types s items).map (·.binaryName)).count owner = 0) :
    owned owner (declarations s before items) = [] := by
  have none : ∀ t ∈ types s items, t.binaryName ≠ owner := fun t member same =>
    List.count_eq_zero.mp absent (List.mem_map.mpr ⟨t, member, same⟩)
  rw [owned_declarations proper none]
  split_ifs with own
  · have plain : items.filter isMember = [] :=
      List.filter_eq_nil_iff.mpr fun item member => by simp [apart own item member]
    rw [plain]
    rfl
  · rfl

/-- A type that no other has the name of owns the declarations of its body. -/
private theorem owned_of_unique {t : TypeDeclaration} {body : List Item} (proper : Proper items)
    (apart : s.owner = t.binaryName → ∀ item ∈ items, item.isMember = false)
    (unique : ((types s items).map (·.binaryName)).count t.binaryName = 1)
    (pair : (t, body) ∈ (types s items).zip (bodies items)) :
    owned t.binaryName (declarations s before items) = members (body.filter isMember) := by
  fun_induction declarations s before items with
  | case1 => simp [types] at pair
  | case2 s before line modifiers header inner rest ihInner ihRest =>
    simp only [Proper] at proper
    obtain ⟨isProper, properInner, properRest⟩ := proper
    have apartRest : s.owner = t.binaryName → ∀ item ∈ rest, item.isMember = false :=
      fun own item member => apart own item (List.mem_cons_of_mem _ member)
    have head : (s.enter header).owner = s.binaryName header.name := rfl
    have counted {u : TypeDeclaration} {b : List Item} {place : Surroundings} {among : List Item}
        (pair : (u, b) ∈ (types place among).zip (bodies among)) :
        0 < ((types place among).map (·.binaryName)).count u.binaryName :=
      List.count_pos_iff.mpr (List.mem_map_of_mem (List.of_mem_zip pair).1)
    simp only [types, bodies, List.cons_append, List.zip_cons_cons,
      List.zip_append (length_bodies _ _)] at pair
    simp only [types, List.cons_append, List.map_cons, List.map_append, List.count_cons,
      List.count_append, beq_iff_eq] at unique
    rw [owned_append, owned_cons, members_declareType isProper, ite_self, List.nil_append]
    rcases List.mem_cons.mp pair with same | later
    · -- The name is that of the first type: nothing inside of it or behind it has it.
      obtain ⟨rfl, rfl⟩ := Prod.mk.inj same
      simp only [if_true] at unique apartRest
      have noneWithin : ((types (s.enter header) body).map (·.binaryName)).count
          (s.binaryName header.name) = 0 := by omega
      have absent : ∀ u ∈ types (s.enter header) body, u.binaryName ≠ s.binaryName header.name :=
        fun u member same =>
          List.count_eq_zero.mp noneWithin (List.mem_map.mpr ⟨u, member, same⟩)
      rw [owned_declarations properInner absent, if_pos head,
        owned_elsewhere properRest apartRest (by omega), List.append_nil]
    · have other : s.binaryName header.name ≠ t.binaryName := by
        intro same
        rw [if_pos same] at unique
        rcases List.mem_append.mp later with within | behind
        · exact absurd (counted within) (by omega)
        · exact absurd (counted behind) (by omega)
      have apartInner : (s.enter header).owner = t.binaryName →
          ∀ item ∈ inner, item.isMember = false := fun own => absurd own other
      rw [if_neg other] at unique
      rcases List.mem_append.mp later with within | behind
      · have positive := counted within
        rw [ihInner properInner apartInner (by omega) within,
          owned_elsewhere properRest apartRest (by omega), List.append_nil]
      · have positive := counted behind
        rw [owned_elsewhere properInner apartInner (by omega),
          ihRest properRest apartRest (by omega) behind, List.nil_append]
  | case3 s before line modifiers header rest ih =>
    have other : s.owner ≠ t.binaryName := fun own => by
      simpa [isMember] using apart own _ List.mem_cons_self
    simp only [types, bodies] at unique pair
    rw [owned_cons_of_ne other]
    exact ih proper.tail (fun own => absurd own other) unique pair
  | case4 s before line modifiers names rest ih =>
    have other : s.owner ≠ t.binaryName := fun own => by
      simpa [isMember] using apart own _ List.mem_cons_self
    simp only [types, bodies] at unique pair
    rw [owned_cons_of_ne other]
    exact ih proper.tail (fun own => absurd own other) unique pair
  | case5 s before item rest notType _ _ ih =>
    rw [(types_cons notType).1] at unique
    rw [(types_cons notType).1, (types_cons (s := s) notType).2] at pair
    exact ih proper.tail (fun own item member => apart own item (List.mem_cons_of_mem _ member))
      unique pair

private theorem members_of_mem_zip {t : TypeDeclaration} {body : List Item}
    (pair : (t, body) ∈ (types s items).zip (bodies items)) : t.members = members body := by
  fun_induction types s items with
  | case1 => simp at pair
  | case2 s line modifiers header inner rest ihInner ihRest =>
    simp only [bodies, List.cons_append, List.zip_cons_cons,
      List.zip_append (length_bodies _ _)] at pair
    rcases List.mem_cons.mp pair with same | later
    · obtain ⟨rfl, rfl⟩ := Prod.mk.inj same
      rfl
    · rcases List.mem_append.mp later with within | behind
      · exact ihInner within
      · exact ihRest behind
  | case3 s item rest notType ih =>
    rw [(types_cons (s := s) notType).2] at pair
    exact ih pair

end Owners

/-- What is seen of the members of a type is what the declarations of one kind show. -/
private theorem filterMap_owned {α : Type} {owner : Text} (kind : DeclarationKind)
    (view : Member → Option α) (shown : Declaration → List α)
    (only : ∀ d, d.members.filterMap view = if d.kind = kind then shown d else [])
    (declarations : List Declaration) : (owned owner declarations).filterMap view =
      (declarations.filter fun d => d.owner == owner && d.kind == kind).flatMap shown := by
  induction declarations with
  | nil => rfl
  | cons d declarations ih =>
    rw [owned_cons, List.filterMap_append, ih, List.filter_cons]
    by_cases same : d.owner = owner
    · by_cases kinds : d.kind = kind
      · rw [if_pos same, only, if_pos kinds, if_pos (by simp [same, kinds]), List.flatMap_cons]
      · rw [if_pos same, only, if_neg kinds, if_neg (by simp [kinds])]
        rfl
    · rw [if_neg same, if_neg (by simp [same])]
      rfl

private theorem filterMap_constructor? (d : Declaration) :
    d.members.filterMap Member.constructor? =
      if d.kind = .constructor then [(d.parameters.map (·.type), d.typeVariables)] else [] := by
  unfold Declaration.members
  cases d.kind <;> simp [Member.constructor?]

private theorem filterMap_method? (d : Declaration) :
    d.members.filterMap Member.method? =
      if d.kind = .method then [(d.name, d.parameters.map (·.type), d.typeVariables)] else [] := by
  unfold Declaration.members
  cases d.kind <;> simp [Member.method?]

private theorem filterMap_field? (d : Declaration) :
    d.members.filterMap Member.field? = if d.kind = .field then d.fieldNames else [] := by
  have back : Member.field? ∘ Member.field = some := rfl
  unfold Declaration.members
  cases d.kind <;> simp [Member.field?, back]

/-- Elements and constants are no constructors. -/
private theorem filterMap_constructor?_members (items : List Item) :
    (members items).filterMap Member.constructor? =
      (members (items.filter isMember)).filterMap Member.constructor? := by
  induction items with
  | nil => rfl
  | cons item items ih =>
    rw [members_cons, List.filterMap_append, ih, List.filter_cons]
    split_ifs with member
    · rw [members_cons item (items.filter isMember), List.filterMap_append]
    · have none : (members [item]).filterMap Member.constructor? = [] := by
        cases item with
        | callable line modifiers header => exact absurd rfl member
        | _ => simp [members, Member.constructor?]
      rw [none, List.nil_append]

end Java.Item

/-- The declarations of one kind that a type owns. -/
def CompilationUnit.declared (unit : CompilationUnit) (owner : Text) (kind : DeclarationKind) :
    List Declaration :=
  unit.declarations.filter fun d => d.owner == owner && d.kind == kind

/-- Every declaration of a source belongs to one of its types. -/
theorem Java.owner_of_mem_declarations {source : Text} {d : Declaration}
    (found : d ∈ (outline source).declarations) :
    ∃ t ∈ (outline source).types, t.binaryName = d.owner := by
  rcases Item.owner_of_mem_declarations found with within | ⟨-, item, among, member⟩
  · exact within
  · exact absurd member (by simp [Item.isMember_of_mem_ofSource among])

/-- Each type of a source has the members of its body, elements and constants of enumerations
among them. If no other type has its name, its constructors, methods and fields are those that the
declarations with this owner declare, in their order; and every declaration has one of the types
for its owner. -/
theorem Java.outline_members (source : Text) :
    List.Forall₂ (fun t body =>
        t.members = Item.members body ∧
        (((outline source).types.map (·.binaryName)).count t.binaryName = 1 →
          t.members.filterMap Member.constructor? =
            ((outline source).declared t.binaryName .constructor).map
              (fun d => (d.parameters.map (·.type), d.typeVariables)) ∧
          (Item.members (body.filter Item.isMember)).filterMap Member.method? =
            ((outline source).declared t.binaryName .method).map
              (fun d => (d.name, d.parameters.map (·.type), d.typeVariables)) ∧
          (Item.members (body.filter Item.isMember)).filterMap Member.field? =
            ((outline source).declared t.binaryName .field).flatMap Declaration.fieldNames))
      (outline source).types (Item.bodies (Item.ofSource source)) ∧
    ∀ d ∈ (outline source).declarations,
      ∃ t ∈ (outline source).types, t.binaryName = d.owner := by
  have proper := Item.proper_ofSource source
  have outside : ∀ item ∈ Item.ofSource source, item.isMember = false :=
    fun item member => Item.isMember_of_mem_ofSource member
  constructor
  · refine List.forall₂_iff_zip.mpr ⟨Item.length_bodies _ _, fun {t body} pair => ?_⟩
    refine ⟨Item.members_of_mem_zip pair, fun unique => ?_⟩
    have declared : Item.owned t.binaryName (outline source).declarations =
        Item.members (body.filter Item.isMember) :=
      Item.owned_of_unique proper (fun _ => outside) unique pair
    rw [Item.members_of_mem_zip pair, Item.filterMap_constructor?_members, ← declared]
    refine ⟨?_, ?_, ?_⟩
    · rw [List.map_eq_flatMap]
      exact Item.filterMap_owned .constructor _ _ Item.filterMap_constructor? _
    · rw [List.map_eq_flatMap]
      exact Item.filterMap_owned .method _ _ Item.filterMap_method? _
    · exact Item.filterMap_owned .field _ _ Item.filterMap_field? _
  · exact fun d found => owner_of_mem_declarations found

/-- Fields and methods of the outer type before, between and behind nested types. -/
example :
    let unit := Java.outline
      "class Shop{int width,depth;class Shelf{void fill(){}}Shop(){}enum Size{S;int rank;}void open(){}}"
    (unit.declared "Shop" .field).flatMap Declaration.fieldNames = ["width".toList, "depth".toList] ∧
      (unit.declared "Shop" .method).map (·.name) = ["open".toList] ∧
      (unit.declared "Shop$Shelf" .method).map (·.name) = ["fill".toList] ∧
      (unit.declared "Shop$Size" .field).flatMap Declaration.fieldNames = ["rank".toList] := by
  decide +kernel

end DocAudit
