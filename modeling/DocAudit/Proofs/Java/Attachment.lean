import DocAudit.Proofs.Java.Members

/-!
Which comment documents which declaration. Each declaration of a source has the nearest
documentation comment before it in the same body, if there are only comments between, and no comment
belongs to two declarations.
-/

set_option autoImplicit false

namespace DocAudit.Java.Item

/-- Where an item stands: its index in a body, and the indices of the types around it from the
outermost inwards. -/
@[ext]
structure Position where
  path : List Nat
  index : Nat
deriving DecidableEq

/-- The items of the body at the end of a path. -/
def siblings : List Item → List Nat → List Item
  | items, [] => items
  | items, i :: path =>
    match items[i]? with
    | some (type _ _ _ body) => siblings body path
    | _ => []

/-- The item at a position. -/
def itemAt? (items : List Item) (p : Position) : Option Item :=
  (siblings items p.path)[p.index]?

/-- The kind, name and line of what an item declares. -/
def heading? : Item → Option (DeclarationKind × Text × Nat)
  | type line _ header _ => some (header.kind, header.name, line)
  | callable line _ header =>
    some (if header.result.isSome then .method else .constructor, header.name, line)
  | field line _ names => some (.field, Text.join ", " names, line)
  | _ => none

/-- Whether an item is a comment of any kind. -/
def isComment : Item → Bool
  | comment _ _ _ => true
  | _ => false

/-- The documentation comment that an item is. -/
def documentation? : Item → Option DocComment
  | comment kind text line =>
    if kind = .blockComment && text.startsWith "/**" && text != ("/**/" : Text) then
      some ⟨text, line⟩
    else none
  | _ => none

/-- The positions of the items that declare something, when the first of them is at this index of
the body at the end of the path. A type comes before what it holds. -/
def positionsFrom (path : List Nat) (index : Nat) : List Item → List Position
  | [] => []
  | type _ _ _ body :: rest =>
    ⟨path, index⟩ :: positionsFrom (path ++ [index]) 0 body ++ positionsFrom path (index + 1) rest
  | item :: rest =>
    (if item.heading?.isSome then [⟨path, index⟩] else []) ++ positionsFrom path (index + 1) rest
termination_by items => sizeOf items

/-- The positions of all items that declare something. -/
def positions (items : List Item) : List Position :=
  positionsFrom [] 0 items

/-- The comment at the first position is the nearest documentation comment before the second, in the
same body and with only comments between. -/
structure Documents (items : List Item) (c p : Position) : Prop where
  path : c.path = p.path
  index : c.index < p.index
  isDocumentation : ((itemAt? items c).bind documentation?).isSome
  between : ∀ k, c.index < k → k < p.index →
    ∃ item, itemAt? items ⟨p.path, k⟩ = some item ∧ item.isComment ∧ item.documentation? = none

section Positions

variable {items all : List Item} {path : List Nat} {index : Nat} {p q c : Position}

theorem siblings_append (items : List Item) (path inner : List Nat) :
    siblings items (path ++ inner) = siblings (siblings items path) inner := by
  induction path generalizing items with
  | nil => rfl
  | cons i path ih =>
    rw [List.cons_append, siblings, siblings]
    split
    · exact ih _
    · cases inner with
      | nil => rfl
      | cons j inner => simp [siblings]

private theorem eq_of_mem_own {item : Item}
    (found : p ∈ if item.heading?.isSome then [Position.mk path index] else []) :
    p = ⟨path, index⟩ := by
  split_ifs at found
  · exact List.mem_singleton.mp found
  · exact absurd found List.not_mem_nil

/-- Every position found lies at or inside an item from the first one on. -/
private theorem exists_prefix_of_mem (found : p ∈ positionsFrom path index items) :
    ∃ i, index ≤ i ∧ path ++ [i] <+: p.path ++ [p.index] := by
  fun_induction positionsFrom path index items with
  | case1 => simp at found
  | case2 path index line modifiers header body rest ihBody ihRest =>
    rcases List.mem_append.mp found with found | found
    · rcases List.mem_cons.mp found with rfl | found
      · exact ⟨index, Nat.le_refl _, List.prefix_rfl⟩
      · obtain ⟨i, -, inside⟩ := ihBody found
        exact ⟨index, Nat.le_refl _, (List.prefix_append _ _).trans inside⟩
    · obtain ⟨i, later, inside⟩ := ihRest found
      exact ⟨i, by omega, inside⟩
  | case3 path index item rest _ ih =>
    rcases List.mem_append.mp found with here | found
    · obtain rfl := eq_of_mem_own here
      exact ⟨index, Nat.le_refl _, List.prefix_rfl⟩
    · obtain ⟨i, later, inside⟩ := ih found
      exact ⟨i, by omega, inside⟩

private theorem eq_of_prefix {i j : Nat} {address : List Nat} (left : path ++ [i] <+: address)
    (right : path ++ [j] <+: address) : i = j := by
  have both := List.prefix_of_prefix_length_le left right (by simp)
  simpa using both.eq_of_length (by simp)

private theorem not_mem_positionsFrom_succ {i : Nat} (before : i < index)
    (inside : path ++ [i] <+: p.path ++ [p.index]) : p ∉ positionsFrom path index items := by
  intro found
  obtain ⟨j, later, other⟩ := exists_prefix_of_mem found
  have same := eq_of_prefix inside other
  omega

private theorem nodup_positionsFrom (path : List Nat) (index : Nat) (items : List Item) :
    (positionsFrom path index items).Nodup := by
  fun_induction positionsFrom path index items with
  | case1 => exact List.nodup_nil
  | case2 path index line modifiers header body rest ihBody ihRest =>
    refine List.nodup_append.mpr ⟨List.nodup_cons.mpr ⟨?_, ihBody⟩, ihRest, ?_⟩
    · intro found
      obtain ⟨i, -, inside⟩ := exists_prefix_of_mem found
      have shorter := inside.length_le
      simp at shorter
    · rintro p inner q outer rfl
      refine not_mem_positionsFrom_succ (Nat.lt_succ_self index) ?_ outer
      rcases List.mem_cons.mp inner with rfl | inner
      · exact List.prefix_rfl
      · obtain ⟨i, -, inside⟩ := exists_prefix_of_mem inner
        exact (List.prefix_append _ _).trans inside
  | case3 path index item rest _ ih =>
    refine List.nodup_append.mpr ⟨?_, ih, ?_⟩
    · split_ifs <;> simp
    · rintro p here q outer rfl
      obtain rfl := eq_of_mem_own here
      exact not_mem_positionsFrom_succ (Nat.lt_succ_self index) List.prefix_rfl outer

/-- The item at an index from the first one on is at its position. -/
private theorem itemAt?_of_siblings {before : List Item}
    (body : siblings all path = before.reverse ++ items) (i : Nat) :
    itemAt? all ⟨path, before.length + i⟩ = items[i]? := by
  rw [itemAt?, body, List.getElem?_append_right (by simp)]
  simp

private theorem siblings_concat {item : Item} (among : itemAt? all ⟨path, index⟩ = some item) :
    siblings all (path ++ [index]) = match item with
      | type _ _ _ body => body
      | _ => [] := by
  rw [itemAt?] at among
  rw [siblings_append, siblings]
  cases item <;> simp [among, siblings]

private theorem positionsFrom_cons (item : Item) (rest : List Item) :
    positionsFrom path index (item :: rest) =
      positionsFrom path index [item] ++ positionsFrom path (index + 1) rest := by
  cases item with
  | type line modifiers header body => simp [positionsFrom]
  | _ => simp [positionsFrom, heading?]

private theorem positionsFrom_item_subset {item : Item} {i : Nat} (among : items[i]? = some item)
    (path : List Nat) (index : Nat) :
    positionsFrom path (index + i) [item] ⊆ positionsFrom path index items := by
  induction items generalizing index i with
  | nil => simp at among
  | cons first rest ih =>
    rw [positionsFrom_cons first rest]
    cases i with
    | zero =>
      rw [List.getElem?_cons_zero] at among
      obtain rfl := Option.some.inj among
      exact List.subset_append_left _ _
    | succ i =>
      rw [List.getElem?_cons_succ] at among
      have later := ih among (index + 1)
      rw [Nat.add_right_comm] at later
      exact List.subset_append_of_subset_right _ later

/-- The positions are those of the items that declare something. -/
private theorem mem_positionsFrom_of_heading {item : Item} (inner : List Nat)
    (found : itemAt? items ⟨inner, index⟩ = some item) (declares : item.heading?.isSome) :
    ⟨path ++ inner, index⟩ ∈ positionsFrom path 0 items := by
  induction inner generalizing path items with
  | nil =>
    have own := positionsFrom_item_subset found path 0
    rw [List.append_nil]
    refine own ?_
    cases item with
    | type line modifiers header body => simp [positionsFrom]
    | _ => simp_all [positionsFrom]
  | cons i inner ih =>
    rw [itemAt?, siblings] at found
    split at found
    · next line modifiers header body among =>
      have inside : ⟨path ++ [i] ++ inner, index⟩ ∈ positionsFrom (path ++ [i]) 0 body := ih found
      rw [List.append_assoc] at inside
      have own := positionsFrom_item_subset among path 0
      refine own ?_
      simp only [positionsFrom, Nat.zero_add, List.append_nil]
      exact List.mem_cons_of_mem _ inside
    · simp at found

end Positions

section Comments

variable {items all before : List Item} {path : List Nat} {index : Nat} {p q c : Position}
  {doc : DocComment}

theorem isComment_of_documentation? {item : Item} (isDoc : item.documentation? = some doc) :
    item.isComment := by
  cases item with
  | comment kind text line => rfl
  | _ => simp [documentation?] at isDoc

private theorem docComment?_cons (item : Item) (before : List Item) :
    docComment? (item :: before) =
      item.documentation?.or (if item.isComment then docComment? before else none) := by
  cases item with
  | comment kind text line =>
    rw [docComment?, documentation?]
    split_ifs <;> simp_all [isComment]
  | _ => rfl

/-- The search backwards passes over comments up to the first documentation comment. -/
private theorem docComment?_eq_some_iff : docComment? before = some doc ↔
    ∃ i : Nat, before[i]?.bind documentation? = some doc ∧
      ∀ j < i, ∃ item : Item,
        before[j]? = some item ∧ item.isComment ∧ item.documentation? = none := by
  induction before with
  | nil => simp [docComment?]
  | cons first before ih =>
    rw [docComment?_cons]
    constructor
    · intro found
      rcases Option.or_eq_some_iff.mp found with here | ⟨plain, found⟩
      · exact ⟨0, here, by simp⟩
      · split_ifs at found with skipped
        obtain ⟨i, isDoc, between⟩ := ih.mp found
        refine ⟨i + 1, isDoc, fun j earlier => ?_⟩
        cases j with
        | zero => exact ⟨first, rfl, skipped, plain⟩
        | succ j => exact between j (Nat.lt_of_succ_lt_succ earlier)
    · rintro ⟨i, isDoc, between⟩
      cases i with
      | zero =>
        have here : first.documentation? = some doc := isDoc
        rw [here, Option.some_or]
      | succ i =>
        obtain ⟨item, same, skipped, plain⟩ := between 0 (Nat.succ_pos i)
        obtain rfl := Option.some.inj same
        rw [plain, Option.none_or, if_pos skipped]
        exact ih.mpr ⟨i, isDoc, fun j earlier => between (j + 1) (Nat.succ_lt_succ earlier)⟩

/-- What the search backwards from an item finds is the comment that documents it. -/
private theorem docComment?_iff_documents (body : siblings all path = before.reverse ++ items) :
    docComment? before = some doc ↔ ∃ c, Documents all c ⟨path, before.length⟩ ∧
      (itemAt? all c).bind documentation? = some doc := by
  -- The nearest of the items before is the last of them in their body.
  have turned {k : Nat} (earlier : k < before.length) :
      itemAt? all ⟨path, k⟩ = before[before.length - 1 - k]? := by
    rw [itemAt?, body, List.getElem?_append_left (by simpa using earlier),
      List.getElem?_reverse earlier]
  rw [docComment?_eq_some_iff]
  constructor
  · rintro ⟨i, isDoc, between⟩
    have inRange : i < before.length := by
      by_contra outside
      rw [List.getElem?_eq_none (Nat.le_of_not_lt outside)] at isDoc
      simp at isDoc
    have back : before.length - 1 - (before.length - 1 - i) = i := by omega
    have here : itemAt? all ⟨path, before.length - 1 - i⟩ = before[i]? := by
      rw [turned (by omega), back]
    rw [← here] at isDoc
    refine ⟨⟨path, before.length - 1 - i⟩, ⟨rfl, ?_, ?_, fun k after upTo => ?_⟩, isDoc⟩
    · change before.length - 1 - i < before.length
      omega
    · rw [isDoc]
      rfl
    · change before.length - 1 - i < k at after
      change k < before.length at upTo
      rw [turned upTo]
      exact between _ (by omega)
  · rintro ⟨⟨around, k⟩, ⟨rfl, upTo, -, between⟩, isDoc⟩
    change k < before.length at upTo
    rw [turned upTo] at isDoc
    refine ⟨before.length - 1 - k, isDoc, fun j nearer => ?_⟩
    have back : before.length - 1 - (before.length - 1 - j) = j := by omega
    have found := between (before.length - 1 - j) (show k < _ by omega)
      (show _ < before.length by omega)
    rwa [turned (by omega), back] at found

/-- An item strictly between a comment and what it documents is a comment of another kind. -/
private theorem Documents.not_between (documents : Documents all c p) (samePath : q.path = p.path)
    (after : c.index < q.index) (upTo : q.index < p.index) :
    (itemAt? all q).bind documentation? = none ∧ (itemAt? all q).bind heading? = none := by
  obtain ⟨item, found, isComment, plain⟩ := documents.between q.index after upTo
  rw [← samePath] at found
  have here : itemAt? all q = some item := found
  rw [here]
  refine ⟨plain, ?_⟩
  cases item with
  | comment kind text line => rfl
  | _ => cases isComment

/-- A declaration is documented by at most one comment. -/
theorem Documents.comment_unique {c' : Position} (left : Documents all c p)
    (right : Documents all c' p) : c = c' := by
  have samePath : c.path = c'.path := left.path.trans right.path.symm
  rcases Nat.lt_trichotomy c.index c'.index with nearer | same | nearer
  · have plain := (left.not_between right.path nearer right.index).1
    exact absurd right.isDocumentation (by simp [plain])
  · exact Position.ext samePath same
  · have plain := (right.not_between left.path nearer left.index).1
    exact absurd left.isDocumentation (by simp [plain])

/-- A comment documents at most one declaration. -/
theorem Documents.declaration_unique (left : Documents all c p) (right : Documents all c q)
    (declaresLeft : ((itemAt? all p).bind heading?).isSome)
    (declaresRight : ((itemAt? all q).bind heading?).isSome) : p = q := by
  have samePath : p.path = q.path := left.path.symm.trans right.path
  rcases Nat.lt_trichotomy p.index q.index with nearer | same | nearer
  · have silent := (right.not_between samePath left.index nearer).2
    exact absurd declaresLeft (by simp [silent])
  · exact Position.ext samePath same
  · have silent := (left.not_between samePath.symm right.index nearer).2
    exact absurd declaresRight (by simp [silent])

/-- Nothing documents a declaration if something other than a comment comes first. -/
theorem Documents.not_of_blocked {k : Nat} (near : k < p.index)
    (blocks : ∀ item ∈ itemAt? all ⟨p.path, k⟩, item.isComment = false)
    (plain : ∀ j, k < j → j < p.index → (itemAt? all ⟨p.path, j⟩).bind documentation? = none) :
    ¬ Documents all c p := by
  intro documents
  rcases Nat.lt_trichotomy c.index k with before | same | after
  · obtain ⟨item, found, isComment, -⟩ := documents.between k before near
    exact absurd isComment (by simp [blocks item found])
  · have here : itemAt? all c = itemAt? all ⟨p.path, k⟩ := by
      rw [← same, ← documents.path]
    obtain ⟨doc, isDoc⟩ := Option.isSome_iff_exists.mp documents.isDocumentation
    obtain ⟨item, found, isDoc⟩ := Option.bind_eq_some_iff.mp isDoc
    rw [here] at found
    exact absurd (isComment_of_documentation? isDoc) (by simp [blocks item found])
  · have silent := plain c.index after documents.index
    rw [← documents.path] at silent
    exact absurd documents.isDocumentation (by simp [silent])

end Comments

/-- What a declaration says of itself is said by the item at its position. It has the comment that
documents this position, and none if something other than a comment comes first on the way back. -/
structure DeclaredAt (items : List Item) (p : Position) (d : Declaration) : Prop where
  heading : (itemAt? items p).bind heading? = some (d.kind, d.name, d.line)
  comment : ∀ doc, d.comment = some doc ↔
    ∃ c, Documents items c p ∧ (itemAt? items c).bind documentation? = some doc
  blocked : ∀ k < p.index, (∀ item ∈ itemAt? items ⟨p.path, k⟩, item.isComment = false) →
    (∀ j, k < j → j < p.index → (itemAt? items ⟨p.path, j⟩).bind documentation? = none) →
    d.comment = none

section Declarations

variable {all items before : List Item} {path : List Nat}

/-- The declaration of an item is at the position of the item, and has the comment that the search
backwards finds. -/
private theorem declaredAt {item : Item} {rest : List Item} {d : Declaration}
    (body : siblings all path = before.reverse ++ item :: rest)
    (heading : item.heading? = some (d.kind, d.name, d.line))
    (comment : d.comment = docComment? before) :
    DeclaredAt all ⟨path, before.length⟩ d := by
  have here : itemAt? all ⟨path, before.length⟩ = some item := itemAt?_of_siblings body 0
  have documented (doc : DocComment) : d.comment = some doc ↔
      ∃ c, Documents all c ⟨path, before.length⟩ ∧
        (itemAt? all c).bind documentation? = some doc := by
    rw [comment, docComment?_iff_documents body]
  refine ⟨?_, documented, fun k near blocks plain => ?_⟩
  · rw [here]
    exact heading
  · refine Option.eq_none_iff_forall_ne_some.mpr fun doc found => ?_
    obtain ⟨c, documents, -⟩ := (documented doc).mp found
    exact Documents.not_of_blocked near blocks plain documents

private theorem forall₂_declarations (s : Surroundings)
    (body : siblings all path = before.reverse ++ items) :
    List.Forall₂ (DeclaredAt all) (positionsFrom path before.length items)
      (declarations s before items) := by
  fun_induction declarations s before items generalizing path with
  | case1 => simp [positionsFrom]
  | case2 s before line modifiers header inner rest ihBody ihRest =>
    have own := declaredAt (d := declareType s before line modifiers header) body rfl rfl
    have here := itemAt?_of_siblings body 0
    have inside : siblings all (path ++ [before.length]) = [].reverse ++ inner :=
      siblings_concat here
    have behind : siblings all path =
        (type line modifiers header inner :: before).reverse ++ rest := by
      simp [body]
    rw [positionsFrom]
    exact List.rel_append (.cons own (ihBody inside)) (ihRest behind)
  | case3 s before line modifiers header rest ih =>
    have own := declaredAt (d := declareCallable s before line modifiers header) body rfl rfl
    have behind : siblings all path =
        (callable line modifiers header :: before).reverse ++ rest := by
      simp [body]
    simp only [positionsFrom, heading?, Option.isSome_some, if_true]
    exact .cons own (ih behind)
  | case4 s before line modifiers names rest ih =>
    have own := declaredAt (d := declare s before .field (Text.join ", " names) line modifiers)
      body rfl rfl
    have behind : siblings all path = (field line modifiers names :: before).reverse ++ rest := by
      simp [body]
    simp only [positionsFrom, heading?, Option.isSome_some, if_true]
    exact .cons own (ih behind)
  | case5 s before item rest notType notCallable notField ih =>
    have silent : item.heading? = none := by
      cases item with
      | type line modifiers header inner => exact (notType _ _ _ _ rfl).elim
      | callable line modifiers header => exact (notCallable _ _ _ rfl).elim
      | field line modifiers names => exact (notField _ _ _ rfl).elim
      | _ => rfl
    have behind : siblings all path = (item :: before).reverse ++ rest := by
      simp [body]
    rw [positionsFrom, silent]
    · exact ih behind
    · exact notType

/-- The declarations of a run of items are those of the items at its positions. -/
private theorem forall₂_positions (s : Surroundings) (items : List Item) :
    List.Forall₂ (DeclaredAt items) (positions items) (declarations s [] items) := by
  have whole : siblings items [] = [].reverse ++ items := rfl
  exact forall₂_declarations s whole

private theorem mem_positions_iff {p : Position} :
    p ∈ positions items ↔ ((itemAt? items p).bind heading?).isSome := by
  constructor
  · intro found
    have each : List.Forall₂
        (fun p d => ((itemAt? items p).bind heading?).isSome ∧ DeclaredAt items p d)
        (positions items) (declarations (.package none) [] items) :=
      (forall₂_positions (.package none) items).imp fun p d declared =>
        ⟨by simp [declared.heading], declared⟩
    exact ((List.forall₂_and_left _ _).mp each).1 p found
  · intro declares
    obtain ⟨heading, found⟩ := Option.isSome_iff_exists.mp declares
    obtain ⟨item, found, heading⟩ := Option.bind_eq_some_iff.mp found
    exact mem_positionsFrom_of_heading p.path found (by simp [heading])

end Declarations

/-- Each item of a source that declares something gives one declaration. It has the nearest
documentation comment before it in its body, if only comments stand between; such a comment is
the only one, and no comment belongs to two declarations. -/
theorem comments_of_declarations (items : List Item) :
    (positions items).Nodup ∧
    (∀ p, p ∈ positions items ↔ ((itemAt? items p).bind heading?).isSome) ∧
    List.Forall₂ (DeclaredAt items) (positions items) (outline items).declarations ∧
    (∀ c c' p, Documents items c p → Documents items c' p → c = c') ∧
    (∀ c, ∀ p ∈ positions items, ∀ q ∈ positions items,
      Documents items c p → Documents items c q → p = q) := by
  refine ⟨nodup_positionsFrom [] 0 items, fun p => mem_positions_iff, forall₂_positions _ items,
    fun c c' p => Documents.comment_unique, ?_⟩
  intro c p isFirst q isSecond first second
  exact first.declaration_unique second (mem_positions_iff.mp isFirst)
    (mem_positions_iff.mp isSecond)

/-- Comments after an initializer, between two types, and at both ends of a body. -/
example :
    let unit := Java.outline
      "/**1*/class A{/**2*/{}int a;/**3*//**/class B{/**4*/}/**5*//*6*/void f(){}/**7*/}"
    unit.declarations.map (fun d => (d.name, d.comment.map (·.text))) =
      [("A".toList, some "/**1*/".toList), ("a".toList, none), ("B".toList, some "/**3*/".toList),
        ("f".toList, some "/**5*/".toList)] := by
  decide +kernel

end DocAudit.Java.Item
