import DocAudit.Java.Header
import DocAudit.Proofs.Java.Words

/-!
The names in the headers of a Java source are words of the source: each cut that reads a header
keeps to the trees it is given.
-/

set_option autoImplicit false

namespace DocAudit

/-- The kinds of declaration that are members of a type. -/
def DeclarationKind.isMember : DeclarationKind → Bool
  | method | constructor | field => true
  | _ => false

namespace Java

variable {trees : List Tree}

section Cuts

namespace Tree

variable {depth : Nat} {place : TypePlace}

/-- The last word is one of the trees. -/
theorem cutLastWord_eq_some {before after : List Tree} {word : Text}
    (cut : cutLastWord depth place trees = some (before, word, after)) :
    ∃ t, t.word? = some word ∧ trees = before ++ t :: after := by
  induction trees generalizing depth place before word after with
  | nil => simp [cutLastWord] at cut
  | cons first rest ih =>
    rw [cutLastWord] at cut
    split at cut
    · next before' word' after' cut' =>
      obtain ⟨t, isWord, rfl⟩ := ih cut'
      simp only [Option.some.injEq, Prod.mk.injEq] at cut
      obtain ⟨rfl, rfl, rfl⟩ := cut
      exact ⟨t, isWord, rfl⟩
    · split at cut
      · next isWord =>
        split_ifs at cut
        simp only [Option.some.injEq, Prod.mk.injEq] at cut
        obtain ⟨rfl, rfl, rfl⟩ := cut
        exact ⟨first, isWord, rfl⟩
      · simp at cut

/-- The list in parentheses is one of the trees. -/
theorem cutParentheses_eq_some {before items after : List Tree}
    (cut : cutParentheses place trees = some (before, items, after)) :
    ∃ t, t.inside? '(' = some items ∧ trees = before ++ t :: after := by
  induction trees generalizing place before with
  | nil => simp [cutParentheses] at cut
  | cons first rest ih =>
    have later {place : TypePlace}
        (cut : (cutParentheses place rest).map (fun cut => (first :: cut.1, cut.2)) =
          some (before, items, after)) :
        ∃ t, t.inside? '(' = some items ∧ first :: rest = before ++ t :: after := by
      obtain ⟨⟨before', items', after'⟩, cut', same⟩ := Option.map_eq_some_iff.mp cut
      simp only [Prod.mk.injEq] at same
      obtain ⟨rfl, rfl, rfl⟩ := same
      obtain ⟨t, inside, rfl⟩ := ih cut'
      exact ⟨t, inside, rfl⟩
    rw [cutParentheses] at cut
    split at cut
    · next inside =>
      split_ifs at cut
      · exact later cut
      · simp only [Option.some.injEq, Prod.mk.injEq] at cut
        obtain ⟨rfl, rfl, rfl⟩ := cut
        exact ⟨first, inside, rfl⟩
    · exact later cut

theorem cutAngle_subset : (cutAngle depth trees).1 ⊆ trees ∧ (cutAngle depth trees).2 ⊆ trees := by
  induction trees generalizing depth with
  | nil => exact ⟨List.Subset.refl _, List.Subset.refl _⟩
  | cons t rest ih =>
    rw [cutAngle]
    split_ifs
    · exact ⟨List.nil_subset _, List.subset_cons_self t rest⟩
    · exact ⟨List.cons_subset_cons t ih.1, List.subset_cons_of_subset t ih.2⟩

theorem subset_of_mem_split {separator : Tree → Bool} {part : List Tree}
    (member : part ∈ split separator depth trees) : part ⊆ trees := by
  induction trees generalizing depth part with
  | nil =>
    obtain rfl := List.mem_singleton.mp member
    exact List.Subset.refl _
  | cons t rest ih =>
    rw [split] at member
    split_ifs at member
    · rcases List.mem_cons.mp member with rfl | member
      · exact List.nil_subset _
      · exact List.subset_cons_of_subset t (ih member)
    · split at member
      · next first parts cut =>
        rcases List.mem_cons.mp member with rfl | member
        · exact List.cons_subset_cons t (ih (cut ▸ List.mem_cons_self))
        · exact List.subset_cons_of_subset t (ih (cut ▸ List.mem_cons_of_mem first member))
      · obtain rfl := List.mem_singleton.mp member
        exact List.cons_subset_cons t (List.nil_subset rest)

end Tree

/-- What follows the modifiers is the end of the trees. -/
theorem Modifiers.read_suffix (declaresType : Bool) :
    (Modifiers.read declaresType trees).2 <:+ trees := by
  fun_induction Modifiers.read declaresType trees with
  | case1 => exact List.suffix_rfl
  | case2 t rest word _ m after found ih =>
    rw [found] at ih
    exact ih.trans (List.suffix_cons t rest)
  | case3 t rest _ _ name size _ m after found ih =>
    rw [found] at ih
    exact ih.trans ((List.drop_suffix _ rest).trans (List.suffix_cons t rest))
  | case5 t rest _ _ _ _ m after found _ ih =>
    rw [found] at ih
    exact ih.trans (List.suffix_cons t rest)
  | case4 | case6 => exact List.suffix_rfl

namespace Header

theorem dropAnnotations_suffix : dropAnnotations trees <:+ trees := by
  fun_induction dropAnnotations trees with
  | case1 => exact List.suffix_rfl
  | case2 t rest _ ih => exact ih.trans (List.suffix_cons t rest)
  | case3 t rest _ name size _ ih =>
    exact ih.trans ((List.drop_suffix _ rest).trans (List.suffix_cons t rest))
  | case4 => exact List.suffix_rfl

theorem cutDots_subset {type after : List Tree} (cut : cutDots trees = some (type, after)) :
    after ⊆ trees := by
  fun_induction cutDots trees generalizing type with
  | case1 => simp at cut
  | case2 t u v rest _ =>
    obtain rfl := (Prod.mk.inj (Option.some.inj cut)).2
    exact fun tree member =>
      List.mem_cons_of_mem t (List.mem_cons_of_mem u (List.mem_cons_of_mem v member))
  | case3 t u v rest _ ih =>
    obtain ⟨⟨before, later⟩, cut', same⟩ := Option.map_eq_some_iff.mp cut
    obtain rfl := (Prod.mk.inj same).2
    exact List.subset_cons_of_subset t (ih cut')
  | case4 => simp at cut

theorem subset_of_mem_declarators {part : List Tree} (member : part ∈ declarators trees) :
    part ⊆ trees := by
  fun_induction declarators trees generalizing part with
  | case1 =>
    obtain rfl := List.mem_singleton.mp member
    exact List.Subset.refl _
  | case2 t rest _ ih =>
    rcases List.mem_cons.mp member with rfl | member
    · exact List.nil_subset _
    · exact List.subset_cons_of_subset t (ih member)
  | case3 t rest _ size first parts cut =>
    rename_i ih
    have dropped := List.drop_subset size rest
    rcases List.mem_cons.mp member with rfl | member
    · refine List.cons_subset_cons t (List.append_subset.mpr ⟨List.take_subset size rest, ?_⟩)
      exact List.Subset.trans (ih (cut ▸ List.mem_cons_self)) dropped
    · exact List.subset_cons_of_subset t
        (List.Subset.trans (ih (cut ▸ List.mem_cons_of_mem first member)) dropped)
  | case4 t rest _ size =>
    obtain rfl := List.mem_singleton.mp member
    exact List.cons_subset_cons t (List.take_subset size rest)

end Header

end Cuts

/-- The names in the header of a method or constructor are words. -/
structure CallableHeader.Proper (header : CallableHeader) : Prop where
  name : IsName header.name
  typeVariables : ∀ v ∈ header.typeVariables, IsName v.name
  parameters : ∀ p ∈ header.parameters, IsName p.name

/-- The names in the header of a type are words, and its kind is one of a type. -/
structure TypeHeader.Proper (header : TypeHeader) : Prop where
  kind : header.kind.isMember = false
  name : IsName header.name
  typeVariables : ∀ v ∈ header.typeVariables, IsName v.name
  components : ∀ p ∈ header.components, IsName p.name

section Headers

private theorem isName_nil : IsName [] :=
  fun _ member => absurd member List.not_mem_nil

private theorem isName_of_head? {name : Text} (spelled : ∀ t ∈ trees, t.Spelled)
    (word : trees.head?.bind Tree.word? = some name) : IsName name := by
  obtain ⟨t, first, isWord⟩ := Option.bind_eq_some_iff.mp word
  exact (spelled t (List.mem_of_mem_head? first)).word isWord

private theorem spelled_dropComments (spelled : ∀ t ∈ trees, t.Spelled) :
    ∀ t ∈ Tree.dropComments trees, t.Spelled :=
  fun t member => spelled t ((List.dropWhile_suffix _).subset member)

private theorem isName_of_cutLastWord {depth : Nat} {place : Tree.TypePlace}
    {before after : List Tree} {word : Text} (spelled : ∀ t ∈ trees, t.Spelled)
    (cut : Tree.cutLastWord depth place trees = some (before, word, after)) : IsName word := by
  obtain ⟨t, isWord, rfl⟩ := Tree.cutLastWord_eq_some cut
  exact (spelled t (List.mem_append_right before List.mem_cons_self)).word isWord

namespace Header

/-- The names of a field are words. -/
theorem isName_of_mem_fieldNames {name : Text} (spelled : ∀ t ∈ trees, t.Spelled)
    (member : name ∈ fieldNames trees) : IsName name := by
  obtain ⟨part, declarator, found⟩ := List.mem_filterMap.mp member
  obtain ⟨⟨before, word, after⟩, cut, rfl⟩ := Option.map_eq_some_iff.mp found
  refine isName_of_cutLastWord (fun t inside => spelled t ?_) cut
  exact subset_of_mem_declarators declarator ((List.takeWhile_prefix _).subset inside)

private theorem isName_of_typeVariable? {v : TypeVariable} (spelled : ∀ t ∈ trees, t.Spelled)
    (read : typeVariable? trees = some v) : IsName v.name := by
  unfold typeVariable? at read
  split at read
  · next t rest first =>
    obtain ⟨name, isWord, rfl⟩ := Option.map_eq_some_iff.mp read
    have word : IsName name :=
      (spelled t (dropAnnotations_suffix.subset (first ▸ List.mem_cons_self))).word isWord
    split
    · split_ifs
      · exact word
      · exact word
    · exact word
  · simp at read

/-- The type variables before a header are words, and the rest of the header is read from the same
trees. -/
private theorem typeVariables_spelled (spelled : ∀ t ∈ trees, t.Spelled) :
    (∀ v ∈ (typeVariables trees).1, IsName v.name) ∧
      ∀ t ∈ (typeVariables trees).2, t.Spelled := by
  have bare := spelled_dropComments spelled
  unfold typeVariables
  split
  · next t rest first =>
    rw [first] at bare
    have later : ∀ u ∈ rest, u.Spelled := fun u member => bare u (List.mem_cons_of_mem t member)
    split_ifs
    · refine ⟨fun v member => ?_, fun u member => later u (Tree.cutAngle_subset.2 member)⟩
      obtain ⟨part, inner, read⟩ := List.mem_filterMap.mp member
      refine isName_of_typeVariable? (fun u inside => later u ?_) read
      exact Tree.cutAngle_subset.1 (Tree.subset_of_mem_split inner inside)
    · exact ⟨fun v member => absurd member List.not_mem_nil, bare⟩
  · exact ⟨fun v member => absurd member List.not_mem_nil,
      fun t member => absurd member List.not_mem_nil⟩

private theorem isName_of_parameter? {isFirst : Bool} {p : Parameter}
    (spelled : ∀ t ∈ trees, t.Spelled) (read : parameter? isFirst trees = some p) :
    IsName p.name := by
  have rest : ∀ t ∈ (Modifiers.read false (Tree.dropComments trees)).2, t.Spelled :=
    fun t member => spelled_dropComments spelled t ((Modifiers.read_suffix false).subset member)
  unfold parameter? at read
  simp only at read
  split at read
  · next type after cut =>
    obtain rfl := Option.some.inj read
    have named : ∀ t ∈ dropAnnotations after, t.Spelled := fun t member =>
      rest t (cutDots_subset cut (dropAnnotations_suffix.subset member))
    cases word : (dropAnnotations after).head?.bind Tree.word? with
    | none => exact isName_nil
    | some name => exact isName_of_head? named word
  · split at read
    · next type name brackets cut =>
      split_ifs at read
      obtain rfl := Option.some.inj read
      exact isName_of_cutLastWord rest cut
    · simp at read

private theorem isName_of_mem_parameters (spelled : ∀ t ∈ trees, t.Spelled) :
    ∀ p ∈ parameters trees, IsName p.name := by
  intro p member
  have inside : ∀ part ∈ Tree.split (Tree.isSymbol ',') 0 trees, ∀ t ∈ part, t.Spelled :=
    fun part cut t member => spelled t (Tree.subset_of_mem_split cut member)
  unfold parameters at member
  split at member
  · exact absurd member List.not_mem_nil
  · next first others cut =>
    rw [cut] at inside
    rcases List.mem_append.mp member with head | later
    · exact isName_of_parameter? (inside first List.mem_cons_self) (Option.mem_toList.mp head)
    · obtain ⟨part, among, read⟩ := List.mem_filterMap.mp later
      exact isName_of_parameter? (inside part (List.mem_cons_of_mem first among)) read

end Header

theorem CallableHeader.proper_of_read? {header : CallableHeader} (spelled : ∀ t ∈ trees, t.Spelled)
    (found : read? trees = some header) : header.Proper := by
  obtain ⟨bound, rest⟩ := Header.typeVariables_spelled spelled
  unfold read? at found
  simp only [bind, Option.bind_eq_some_iff] at found
  obtain ⟨⟨before, items, after⟩, cut, ⟨type, name, _⟩, cut', found⟩ := found
  obtain rfl := Option.some.inj found
  obtain ⟨t, inside, whole⟩ := Tree.cutParentheses_eq_some cut
  have part : ∀ u ∈ before ++ t :: after, u.Spelled := by
    rw [← whole]
    exact fun u member => rest u (Header.dropAnnotations_suffix.subset member)
  exact {
    name := isName_of_cutLastWord (fun u member => part u (List.mem_append_left _ member)) cut'
    typeVariables := bound
    parameters := Header.isName_of_mem_parameters
      ((part t (List.mem_append_right before List.mem_cons_self)).inside inside) }

/-- The name of an annotation type may be the end of the token that also holds its keyword. -/
private theorem Modifiers.spelled_of_annotationType? {rest : List Tree}
    (spelled : ∀ t ∈ trees, t.Spelled) (found : annotationType? trees = some rest) :
    ∀ t ∈ rest, t.Spelled := by
  unfold annotationType? at found
  split at found
  · next sign u later =>
    split_ifs at found with keyword
    have tail : ∀ t ∈ later, t.Spelled := fun t member =>
      spelled t (List.mem_cons_of_mem sign (List.mem_cons_of_mem _ member))
    split at found
    · obtain rfl := Option.some.inj found
      exact tail
    · next name cut =>
      obtain rfl := Option.some.inj found
      refine List.forall_mem_cons.mpr ⟨?_, tail⟩
      intro token member word c letter
      obtain rfl := List.mem_singleton.mp member
      have whole : u.Spelled :=
        spelled (.leaf u) (List.mem_cons_of_mem sign List.mem_cons_self) u (List.mem_singleton_self u)
      exact whole word c (List.drop_subset 9 u.text letter)
  · simp at found

private theorem TypeHeader.spelled_of_kind? {kind : DeclarationKind} {rest : List Tree}
    (spelled : ∀ t ∈ trees, t.Spelled) (found : kind? trees = some (kind, rest)) :
    kind.isMember = false ∧ ∀ t ∈ rest, t.Spelled := by
  have bare := spelled_dropComments spelled
  unfold kind? at found
  split at found
  · next t later first =>
    rw [first] at bare
    have tail : ∀ u ∈ later, u.Spelled := fun u member => bare u (List.mem_cons_of_mem t member)
    split_ifs at found
    · obtain ⟨rfl, rfl⟩ := Prod.mk.inj (Option.some.inj found)
      exact ⟨rfl, tail⟩
    · obtain ⟨rfl, rfl⟩ := Prod.mk.inj (Option.some.inj found)
      exact ⟨rfl, tail⟩
    · obtain ⟨rfl, rfl⟩ := Prod.mk.inj (Option.some.inj found)
      exact ⟨rfl, tail⟩
    · obtain ⟨after, sign, same⟩ := Option.map_eq_some_iff.mp found
      obtain ⟨rfl, rfl⟩ := Prod.mk.inj same
      exact ⟨rfl, Modifiers.spelled_of_annotationType? bare sign⟩
    · split at found
      · simp only at found
        split_ifs at found
        obtain ⟨rfl, rfl⟩ := Prod.mk.inj (Option.some.inj found)
        exact ⟨rfl, tail⟩
      · simp at found
  · simp at found

theorem TypeHeader.proper_of_read? {header : TypeHeader} (spelled : ∀ t ∈ trees, t.Spelled)
    (found : read? trees = some header) : header.Proper := by
  unfold read? at found
  simp only [bind, Option.bind_eq_some_iff] at found
  obtain ⟨⟨kind, rest⟩, keyword, found⟩ := found
  obtain ⟨kind, spelled⟩ := TypeHeader.spelled_of_kind? spelled keyword
  have bare := spelled_dropComments spelled
  split at found
  · next name rest first =>
    simp only at first
    rw [first] at bare
    obtain ⟨bound, inner⟩ := Header.typeVariables_spelled
      fun t member => bare t (List.mem_cons_of_mem name member)
    obtain ⟨word, isWord, read⟩ := Option.bind_eq_some_iff.mp found
    obtain rfl := Option.some.inj read
    clear found read
    refine ⟨kind, (bare name List.mem_cons_self).word isWord, bound, ?_⟩
    simp only
    split
    · next items after cut =>
      obtain ⟨t, inside, whole⟩ := Tree.cutParentheses_eq_some cut
      have part : t.Spelled := inner t (whole ▸ List.mem_append_right _ List.mem_cons_self)
      exact Header.isName_of_mem_parameters (part.inside inside)
    · exact fun p member => absurd member List.not_mem_nil
  · simp at found

end Headers

end Java

end DocAudit
