import DocAudit.Java.Syntax
import DocAudit.Proofs.Java.Names

/-!
What every item of a Java source has in common: its names are words, a field has at least one, and
methods, constructors and fields stand in the bodies of types only.
-/

set_option autoImplicit false

namespace DocAudit.Java.Item

/-- Whether every header among the items and in their bodies is proper, and every field has a name
and only words for names. -/
def Proper : List Item → Prop
  | [] => True
  | type _ _ header body :: rest => header.Proper ∧ Proper body ∧ Proper rest
  | callable _ _ header :: rest => header.Proper ∧ Proper rest
  | field _ _ names :: rest => (names ≠ [] ∧ ∀ name ∈ names, IsName name) ∧ Proper rest
  | _ :: rest => Proper rest
termination_by items => sizeOf items

/-- Whether an item is a method, a constructor or a field. -/
def isMember : Item → Bool
  | callable _ _ _ | field _ _ _ => true
  | _ => false

section Read

variable {place : Place} {trees : List Tree}

theorem Proper.tail {item : Item} {rest : List Item} (proper : Proper (item :: rest)) :
    Proper rest := by
  cases item with
  | type line modifiers header body =>
    simp only [Proper] at proper
    exact proper.2.2
  | callable _ _ _ | field _ _ _ =>
    simp only [Proper] at proper
    exact proper.2
  | _ =>
    simp only [Proper] at proper
    exact proper

private theorem proper_cons {item : Item} {rest : List Item} (first : Proper [item])
    (later : Proper rest) : Proper (item :: rest) := by
  cases item with
  | type line modifiers header body =>
    simp only [Proper, and_true] at first ⊢
    exact ⟨first.1, first.2, later⟩
  | callable _ _ _ | field _ _ _ =>
    simp only [Proper, and_true] at first ⊢
    exact ⟨first, later⟩
  | _ => simpa only [Proper] using later

private theorem spelled_read (declaresType : Bool) (spelled : ∀ t ∈ trees, t.Spelled) :
    ∀ t ∈ (Modifiers.read declaresType trees).2, t.Spelled :=
  fun t member => spelled t ((Modifiers.read_suffix declaresType).subset member)

private theorem proper_ofStatement (spelled : ∀ t ∈ trees, t.Spelled) :
    Proper [ofStatement place trees] := by
  have bare : ∀ t ∈ Tree.dropComments (Modifiers.read true trees).2, t.Spelled := fun t member =>
    spelled_read true spelled t ((List.dropWhile_suffix _).subset member)
  unfold ofStatement
  simp only
  split
  · split_ifs <;> simp only [Proper]
  · split_ifs
    · split
      · simp only [Proper]
      · next some =>
        simp only [Proper, and_true]
        exact ⟨some, fun name member => Header.isName_of_mem_fieldNames bare member⟩
    · split <;> simp only [Proper]
    · split
      · next found => simpa only [Proper, and_true] using CallableHeader.proper_of_read? bare found
      · simp only [Proper]
  · simp only [Proper]

private theorem proper_ofBlock (spelled : ∀ t ∈ trees, t.Spelled) :
    Proper [ofBlock place trees] := by
  have rest := spelled_read true spelled
  unfold ofBlock
  simp only
  split
  · next found =>
    simpa only [Proper, and_true] using CallableHeader.proper_of_read? rest found
  · simp only [Proper]

private theorem proper_ofConstant_append {rest : List Item} (later : Proper rest) :
    Proper (ofConstant trees ++ rest) := by
  unfold ofConstant
  split
  · simpa only [List.singleton_append, Proper] using later
  · exact later

private theorem proper_ofComment_cons {t : Tree} {rest : List Item} (later : Proper rest) :
    Proper (ofComment t :: rest) := by
  simpa only [ofComment, Proper] using later

private theorem spelled_nil : ∀ t ∈ ([] : List Tree), t.Spelled :=
  fun _ member => absurd member List.not_mem_nil

mutual

private theorem proper_readBody (kind : DeclarationKind) :
    ∀ t : Tree, t.Spelled → Proper (readBody kind t)
  | .leaf _, _ => by simp only [readBody, Proper]
  | .group opening items closing, spelled => by
    rw [readBody]
    split_ifs
    · exact proper_readConstants [] items spelled_nil spelled.items
    · exact proper_read (.body kind) [] false items spelled_nil spelled.items

private theorem proper_read (place : Place) (held : List Tree) (inValue : Bool) :
    ∀ trees : List Tree, (∀ t ∈ held, t.Spelled) → (∀ t ∈ trees, t.Spelled) →
      Proper (read place held inValue trees)
  | [], _, _ => by simp only [read, Proper]
  | t :: rest, begun, spelled => by
    obtain ⟨first, later⟩ := List.forall_mem_cons.mp spelled
    have item : ∀ u ∈ held.reverse, u.Spelled :=
      fun u member => begun u (List.mem_reverse.mp member)
    have others := proper_read place [] false rest spelled_nil later
    rw [read]
    split_ifs
    · exact proper_ofComment_cons others
    · exact proper_cons (proper_ofStatement item) others
    · refine proper_cons ?_ others
      split
      · next header found =>
        simp only [Proper, and_true]
        exact ⟨TypeHeader.proper_of_read? (spelled_read true item) found,
          proper_readBody header.kind t first⟩
      · exact proper_ofBlock item
    · exact proper_read place (t :: held) _ rest (List.forall_mem_cons.mpr ⟨first, begun⟩) later

private theorem proper_readConstants (held : List Tree) :
    ∀ trees : List Tree, (∀ t ∈ held, t.Spelled) → (∀ t ∈ trees, t.Spelled) →
      Proper (readConstants held trees)
  | [], _, _ => by
    rw [readConstants, ← List.append_nil (ofConstant _)]
    exact proper_ofConstant_append (by simp only [Proper])
  | t :: rest, begun, spelled => by
    obtain ⟨first, later⟩ := List.forall_mem_cons.mp spelled
    have others := proper_readConstants [] rest spelled_nil later
    rw [readConstants]
    split_ifs
    · exact proper_ofComment_cons others
    · exact proper_ofConstant_append (by simpa only [Proper] using others)
    · exact proper_ofConstant_append
        (by simpa only [Proper] using proper_read (.body .enumType) [] false rest spelled_nil later)
    · exact proper_readConstants (t :: held) rest (List.forall_mem_cons.mpr ⟨first, begun⟩) later

end

/-- The items of a source are proper. -/
theorem proper_ofSource (source : Text) : Proper (ofSource source) :=
  proper_read .source [] false _ spelled_nil Tree.spelled_of_mem_ofTokens_scan

private theorem isMember_of_mem_read {held : List Tree} {inValue : Bool} {item : Item}
    (member : item ∈ read .source held inValue trees) : item.isMember = false := by
  induction trees generalizing held inValue with
  | nil => simp [read] at member
  | cons t rest ih =>
    rw [read] at member
    split_ifs at member
    · rcases List.mem_cons.mp member with rfl | later
      · rfl
      · exact ih later
    · rcases List.mem_cons.mp member with rfl | later
      · unfold ofStatement
        simp only
        split
        · split_ifs <;> rfl
        · next contra => cases contra
        · rfl
      · exact ih later
    · rcases List.mem_cons.mp member with rfl | later
      · split
        · rfl
        · rfl
      · exact ih later
    · exact ih member

/-- Outside of types there is no method, constructor or field. -/
theorem isMember_of_mem_ofSource {source : Text} {item : Item} (member : item ∈ ofSource source) :
    item.isMember = false :=
  isMember_of_mem_read member

end Read

end DocAudit.Java.Item
