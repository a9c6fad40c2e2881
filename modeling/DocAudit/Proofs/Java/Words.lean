import DocAudit.Java.Tree
import DocAudit.Proofs.Text

/-!
The words of a Java source. The trees of a source hold its tokens and no others, and its names and
keywords have neither white space nor punctuation in them.
-/

set_option autoImplicit false

namespace DocAudit.Java

/-- A name has only letters, digits and the like; one keyword has a hyphen. -/
def IsName (t : Text) : Prop :=
  ∀ c ∈ t, Token.isWordChar c ∨ c = '-'

instance (t : Text) : Decidable (IsName t) :=
  List.decidableBAll (fun c => Token.isWordChar c ∨ c = '-') t

namespace Token

/-- A name or keyword is spelled as one. -/
def Spelled (t : Token) : Prop :=
  t.kind = .word → IsName t.text

private theorem isBlank_eq_false_of_isWordChar {c : Char} (letter : isWordChar c) :
    isBlank c = false := by
  have printable : 0x24 ≤ c.toNat ∧ c.toNat < 0x80 ∨ isBlank c = false := by
    unfold isWordChar Char.isAlphanum Char.isAlpha Char.isUpper Char.isLower Char.isDigit at letter
    simp only [Bool.or_eq_true, Bool.and_eq_true, decide_eq_true_eq, beq_iff_eq,
      Bool.not_eq_true', ge_iff_le, UInt32.le_iff_toNat_le] at letter
    have code : c.val.toNat = c.toNat := rfl
    rcases letter with ((((⟨low, high⟩ | ⟨low, high⟩) | ⟨low, high⟩) | rfl) | rfl) | ⟨-, solid⟩
    iterate 3
      exact Or.inl ⟨le_trans (by decide) (code ▸ low), lt_of_le_of_lt (code ▸ high) (by decide)⟩
    · exact Or.inl (by decide)
    · exact Or.inl (by decide)
    · exact Or.inr solid
  rcases printable with ⟨low, high⟩ | solid
  · have mark : c ≠ '\ufeff' := by
      rintro rfl
      exact absurd high (by decide)
    simp only [isBlank, Text.isBlank, Bool.or_eq_false_iff, Bool.and_eq_false_iff,
      decide_eq_false_iff_not, beq_eq_false_iff_ne]
    exact ⟨by omega, mark⟩
  · exact solid

end Token

namespace IsName

variable {t : Text} {c : Char}

theorem solid (isName : IsName t) (c : Char) (member : c ∈ t) : Text.isBlank c = false := by
  rcases isName c member with letter | rfl
  · exact (Bool.or_eq_false_iff.mp (Token.isBlank_eq_false_of_isWordChar letter)).1
  · decide

theorem ne_comma (isName : IsName t) (member : c ∈ t) : c ≠ ',' := by
  rintro rfl
  exact absurd (isName ',' member) (by decide)

theorem ne_lineFeed (isName : IsName t) (member : c ∈ t) : c ≠ '\n' := by
  rintro rfl
  exact absurd (isName '\n' member) (by decide)

end IsName

namespace Token

private theorem isName_of_lexeme {first : Char} {rest : Text} {size : Nat}
    (word : lexeme first rest = (.word, size)) : IsName (first :: rest.take size) := by
  unfold lexeme at word
  split_ifs at word with line block textBlock string character hyphenated letter digit <;>
    obtain ⟨kind, rfl⟩ := Prod.mk.inj word <;> cases kind
  · have text : first :: rest.take 9 = ("non-sealed" : Text) := by
      obtain ⟨after, whole⟩ := List.isPrefixOf_iff_prefix.mp hyphenated
      rw [← List.take_succ_cons, ← whole, List.take_append_of_le_length (by decide)]
      decide
    have letters : ("non-sealed" : Text).all fun c => isWordChar c || c == '-' := by decide
    rw [text]
    exact fun c member => by simpa using List.all_eq_true.mp letters c member
  · rw [← List.prefix_iff_eq_take.mp (List.takeWhile_prefix isWordChar)]
    intro c member
    rcases List.mem_cons.mp member with rfl | member
    · exact Or.inl letter
    · exact Or.inl (List.mem_takeWhile_imp member)

private theorem spelled_of_mem_scanFrom (line : Nat) (before t : Text) :
    ∀ u ∈ scanFrom line before t, u.Spelled := by
  induction line, before, t using scanFrom.induct with
  | case1 line before =>
    unfold scanFrom
    exact List.forall_mem_nil _
  | case2 line before first rest blank ih =>
    unfold scanFrom
    rw [if_pos blank]
    exact ih
  | case3 line before first rest solid kind size lexed text ih =>
    unfold scanFrom
    rw [if_neg solid]
    simp only [lexed]
    refine List.forall_mem_cons.mpr ⟨?_, ih⟩
    rintro rfl
    exact isName_of_lexeme lexed

theorem spelled_of_mem_scan {source : Text} {t : Token} (member : t ∈ scan source) : t.Spelled :=
  spelled_of_mem_scanFrom 1 [] source t member

end Token

namespace Tree

theorem tokensOf_eq_flatMap (trees : List Tree) : tokensOf trees = trees.flatMap tokens := by
  induction trees with
  | nil => rfl
  | cons t trees ih => rw [tokensOf, ih, List.flatMap_cons]

theorem tokensOf_append (trees more : List Tree) :
    tokensOf (trees ++ more) = tokensOf trees ++ tokensOf more := by
  simp only [tokensOf_eq_flatMap, List.flatMap_append]

/-- The tokens before the innermost of the groups that are open. -/
private def opened : List (Token × List Tree) → List Token
  | [] => []
  | (opening, outer) :: around => opened around ++ tokensOf outer.reverse ++ [opening]

private theorem tokensOf_unclosed (around : List (Token × List Tree)) (items : List Tree) :
    tokensOf (around.foldl (fun inner (opening, outer) => inner ++ leaf opening :: outer)
      items).reverse = opened around ++ tokensOf items.reverse := by
  induction around generalizing items with
  | nil => rfl
  | cons frame around ih =>
    rw [List.foldl_cons, ih, opened]
    simp [tokensOf_append, tokensOf, tokens]

private theorem tokensOf_grow (around : List (Token × List Tree)) (items : List Tree)
    (rest : List Token) :
    tokensOf (grow around items rest) = opened around ++ tokensOf items.reverse ++ rest := by
  induction rest generalizing around items with
  | nil => rw [grow, tokensOf_unclosed, List.append_nil]
  | cons t rest ih =>
    unfold grow
    split_ifs
    · rw [ih, opened]
      simp [tokensOf]
    · split
      · next opening outer around =>
        rw [ih, opened]
        simp [tokensOf_append, tokensOf, tokens]
      · rw [ih, opened]
        simp [tokensOf_append, tokensOf, tokens]
    · rw [ih]
      simp [tokensOf_append, tokensOf, tokens]

/-- The trees of a run of tokens hold these tokens in order. -/
theorem tokensOf_ofTokens (tokens : List Token) : tokensOf (ofTokens tokens) = tokens := by
  rw [ofTokens, tokensOf_grow]
  rfl

/-- The names and keywords in a tree are spelled as such. -/
def Spelled (t : Tree) : Prop :=
  ∀ u ∈ tokens t, u.Spelled

theorem Spelled.word {t : Tree} {w : Text} (spelled : t.Spelled) (word : t.word? = some w) :
    IsName w := by
  cases t with
  | leaf u =>
    simp only [word?] at word
    split_ifs at word with isWord
    obtain rfl := Option.some.inj word
    exact spelled u (List.mem_singleton_self u) isWord
  | group opening items closing => simp [word?] at word

theorem Spelled.items {opening closing : Token} {items : List Tree}
    (spelled : (group opening items closing).Spelled) : ∀ item ∈ items, item.Spelled := by
  intro item member u part
  refine spelled u (List.mem_append_left _ (List.mem_cons_of_mem opening ?_))
  rw [tokensOf_eq_flatMap]
  exact List.mem_flatMap.mpr ⟨item, member, part⟩

theorem Spelled.inside {t : Tree} {c : Char} {items : List Tree} (spelled : t.Spelled)
    (inside : t.inside? c = some items) : ∀ item ∈ items, item.Spelled := by
  cases t with
  | leaf u => simp [inside?] at inside
  | group opening inner closing =>
    simp only [inside?] at inside
    split_ifs at inside
    obtain rfl := Option.some.inj inside
    exact spelled.items

/-- The trees of a source text. -/
theorem spelled_of_mem_ofTokens_scan {source : Text} :
    ∀ t ∈ ofTokens (Token.scan source), t.Spelled := by
  intro t member u part
  have token : u ∈ tokensOf (ofTokens (Token.scan source)) := by
    rw [tokensOf_eq_flatMap]
    exact List.mem_flatMap.mpr ⟨t, member, part⟩
  rw [tokensOf_ofTokens] at token
  exact Token.spelled_of_mem_scan token

end Tree

end DocAudit.Java
