import DocAudit.Proofs.Comment.Place
import DocAudit.Proofs.Comment.Scan
import Mathlib.Data.List.Forall2

/-!
What white space before the closing mark of a comment does to its tokens. Only the last token of the
body is scanned together with the mark, so the tokens before it are the same with and without the
space.
-/

set_option autoImplicit false

namespace DocAudit

/-- The texts differ in white space only. -/
def Text.SameVisible (t t' : Text) : Prop :=
  (t.filter fun c => !isBlank c) = t'.filter fun c => !isBlank c

/-- White space within a text is not visible. -/
theorem Text.sameVisible_gap {gap : Text} (blank : ∀ c ∈ gap, isBlank c)
    (before after : Text) : SameVisible (before ++ after) (before ++ gap ++ after) := by
  have nothing : gap.filter (fun c => !isBlank c) = [] := by
    rw [List.filter_eq_nil_iff]
    intro c member
    simp [blank c member]
  rw [SameVisible, List.filter_append, List.filter_append, List.filter_append, nothing,
    List.append_nil]

namespace Comment

namespace Token

section LastToken

private theorem takeWhile_append_of_lt {p : Char → Bool} {text : Text} (rest : Text)
    (stops : (text.takeWhile p).length < text.length) :
    (text ++ rest).takeWhile p = text.takeWhile p := by
  rw [List.takeWhile_append, if_neg (Nat.ne_of_lt stops)]

/-- A token that ends within a text does not depend on what follows the text. -/
private theorem extent_append_of_lt {kind : TokenKind} {text : Text} (rest : Text)
    (stops : extent kind text < text.length) : extent kind (text ++ rest) = extent kind text := by
  cases kind with
  | blank => rw [extent, extent, takeWhile_append_of_lt rest stops]
  | marker => rfl
  | word => rw [extent, extent, takeWhile_append_of_lt rest stops]
  | quoted =>
    have closed : (text.takeWhile (· != '"')).length < text.length := by
      by_contra open_
      rw [extent, if_neg open_] at stops
      exact open_ stops
    have closed' : (text.takeWhile (· != '"')).length < (text ++ rest).length := by
      rw [List.length_append]
      omega
    rw [extent, extent, takeWhile_append_of_lt rest closed, if_pos closed, if_pos closed']

/-- Of the tokens of a text only the last one can change when the text goes on. -/
private theorem exists_last (line : Nat) {text : Text} (ne_nil : text ≠ []) :
    ∃ (front : List Token) (first : Char) (tail : Text) (line' : Nat),
      extent (kindOf first) tail = tail.length ∧
        ∀ rest, scanFrom line (text ++ rest) = front ++ scanFrom line' (first :: tail ++ rest) := by
  induction line, text using scanFrom.induct with
  | case1 line => exact absurd rfl ne_nil
  | case2 line first tail kind size text line' ih =>
    by_cases whole : size = tail.length
    · exact ⟨[], first, tail, line, whole, fun rest => rfl⟩
    · have stops : size < tail.length := Nat.lt_of_le_of_ne (extent_le kind tail) whole
      have later : tail.drop size ≠ [] := by
        rw [Ne, List.drop_eq_nil_iff]
        omega
      obtain ⟨front, first', tail', line'', whole', scan⟩ := ih later
      refine ⟨⟨kind, text, line'⟩ :: front, first', tail', line'', whole', fun rest => ?_⟩
      have same : extent (kindOf first) (tail ++ rest) = size := extent_append_of_lt rest stops
      rw [List.cons_append, scanFrom_cons, same, List.take_append_of_le_length stops.le,
        List.drop_append_of_le_length stops.le, List.cons_append, ← scan rest]

end LastToken

/-- The closing mark by itself. -/
def mark (line : Nat) : Token :=
  ⟨.word, "*/", line⟩

/-- The space before a closing mark. -/
def space (line : Nat) : Token :=
  ⟨.blank, " ", line⟩

/-- How the tokens of a body end with the closing mark and with a space before it. -/
inductive Ending : List Token → List Token → Prop where
  /-- The mark is a token by itself. -/
  | apart (line : Nat) : Ending [mark line] [space line, mark line]
  /-- White space before the mark takes up the space. -/
  | blank (gap : Text) (line : Nat) (blank : ∀ c ∈ gap, Text.isBlank c) :
    Ending [⟨.blank, gap, line⟩, mark line] [⟨.blank, gap ++ " ", line⟩, mark line]
  /-- The mark is the end of a word. -/
  | word (text : Text) (line : Nat) (ne_nil : text ≠ [])
    (plain : ∀ c ∈ text, Text.isBlank c = false) :
    Ending [⟨.word, text ++ "*/", line⟩] [⟨.word, text, line⟩, space line, mark line]
  /-- The mark stands in a quoted passage that does not end before it. -/
  | quote (tail : Text) (line : Nat) :
    Ending [⟨.quoted, '"' :: tail ++ "*/", line⟩] [⟨.quoted, '"' :: tail ++ " */", line⟩]

/-- No ending starts with an at sign, which a brace before it would take up. -/
theorem Ending.heads {without spaced : List Token} (ending : Ending without spaced) :
    (∀ t ∈ without.head?, t.isMarker '@' = false) ∧ ∀ t ∈ spaced.head?, t.isMarker '@' = false := by
  cases ending <;> constructor <;> rintro t ⟨⟩ <;> rfl

section Endings

variable {first : Char} {tail : Text}

private theorem scanFrom_token (line : Nat) {kind : TokenKind} (isKind : kindOf first = kind)
    (rest : Text) (size : extent kind (tail ++ rest) = tail.length) :
    scanFrom line (first :: tail ++ rest) =
      ⟨kind, first :: tail, line + Text.lineFeeds (first :: tail)⟩ ::
        scanFrom (line + Text.lineFeeds (first :: tail)) rest := by
  rw [List.cons_append, scanFrom_cons, isKind, size, List.take_left, List.drop_left]

private theorem scanFrom_whole (line : Nat) {kind : TokenKind} (isKind : kindOf first = kind)
    (size : extent kind tail = tail.length) :
    scanFrom line (first :: tail) =
      [⟨kind, first :: tail, line + Text.lineFeeds (first :: tail)⟩] := by
  have token := scanFrom_token line isKind [] (by rwa [List.append_nil])
  rwa [List.append_nil, scanFrom_nil] at token

private theorem extent_of_goesOn {kind : TokenKind} (unquoted : kind ≠ .quoted) {rest : Text}
    (goes : ∀ c ∈ tail, goesOn kind c) (stops : ∀ c ∈ rest.head?, goesOn kind c = false) :
    extent kind (tail ++ rest) = tail.length := by
  rw [extent_eq unquoted, List.takeWhile_append_of_pos goes]
  cases rest with
  | nil => simp
  | cons c rest => simp [stops c rfl]

private theorem goesOn_cons {kind : TokenKind} (isKind : kindOf first = kind)
    (notMarker : kind ≠ .marker) (unquoted : kind ≠ .quoted) (goes : ∀ c ∈ tail, goesOn kind c) :
    ∀ c ∈ first :: tail, goesOn kind c := by
  refine List.forall_mem_cons.mpr ⟨?_, goes⟩
  rcases goesOn_kindOf first with here | marker | quoted
  · rwa [isKind] at here
  · exact absurd (isKind.symm.trans marker) notMarker
  · exact absurd (isKind.symm.trans quoted) unquoted

private theorem scanFrom_mark (line : Nat) : scanFrom line "*/" = [mark line] :=
  scanFrom_whole line rfl rfl

private theorem scanFrom_space_mark (line : Nat) :
    scanFrom line " */" = [space line, mark line] := by
  have first : scanFrom line ([' '] ++ "*/".toList) = space line :: scanFrom line "*/" :=
    scanFrom_token line rfl _ rfl
  rw [scanFrom_mark] at first
  exact first

/-- With and without a space before the mark a body is scanned alike but for an ending. -/
def EndsAlike (line : Nat) (body : Text) : Prop :=
  ∃ front without spaced, Ending without spaced ∧
    scanFrom line (body ++ "*/") = front ++ without ∧
    scanFrom line (body ++ " */") = front ++ spaced

private theorem endsAlike_of_complete (line : Nat) {kind : TokenKind}
    (isKind : kindOf first = kind)
    (complete : ∀ rest, extent kind (tail ++ rest) = tail.length) :
    EndsAlike line (first :: tail) := by
  let token : Token := ⟨kind, first :: tail, line + Text.lineFeeds (first :: tail)⟩
  refine ⟨[token], _, _, .apart token.line, ?_, ?_⟩
  · rw [scanFrom_token line isKind _ (complete _), scanFrom_mark]
    rfl
  · rw [scanFrom_token line isKind _ (complete _), scanFrom_space_mark]
    rfl

private theorem endsAlike_of_blank (line : Nat) (isKind : kindOf first = .blank)
    (goes : ∀ c ∈ tail, goesOn .blank c) : EndsAlike line (first :: tail) := by
  have blank : ∀ c ∈ first :: tail, Text.isBlank c :=
    goesOn_cons isKind (by decide) (by decide) goes
  have goes' : ∀ c ∈ tail ++ " ".toList, goesOn .blank c := by
    intro c member
    rcases List.mem_append.mp member with member | member
    · exact goes c member
    · obtain rfl := List.mem_singleton.mp member
      rfl
  have stops : ∀ c ∈ ("*/" : Text).head?, goesOn .blank c = false := by
    rintro c ⟨⟩
    rfl
  have sameLine : Text.lineFeeds (first :: (tail ++ " ".toList)) =
      Text.lineFeeds (first :: tail) := by
    rw [← List.cons_append, Text.lineFeeds_append]
    rfl
  refine ⟨[], _, _, .blank (first :: tail) (line + Text.lineFeeds (first :: tail)) blank, ?_, ?_⟩
  · rw [scanFrom_token line isKind _ (extent_of_goesOn (by decide) goes stops), scanFrom_mark]
    rfl
  · have split : first :: tail ++ " */".toList = first :: (tail ++ " ".toList) ++ "*/".toList := by
      simp
    rw [split, scanFrom_token line isKind _ (extent_of_goesOn (by decide) goes' stops),
      scanFrom_mark, sameLine]
    rfl

private theorem endsAlike_of_word (line : Nat) (isKind : kindOf first = .word)
    (goes : ∀ c ∈ tail, goesOn .word c) : EndsAlike line (first :: tail) := by
  have plain : ∀ c ∈ first :: tail, Text.isBlank c = false := by
    intro c member
    have visible := goesOn_cons isKind (by decide) (by decide) goes c member
    simp only [goesOn, Bool.not_eq_true', Bool.or_eq_false_iff] at visible
    exact visible.1
  have oneLine : Text.lineFeeds (first :: tail) = 0 :=
    Text.lineFeeds_eq_zero fun member => absurd (plain _ member) (by decide)
  have goes' : ∀ c ∈ tail ++ "*/".toList, goesOn .word c := by
    intro c member
    rcases List.mem_append.mp member with member | member
    · exact goes c member
    · have starOrSlash : c = '*' ∨ c = '/' := by simpa using member
      rcases starOrSlash with rfl | rfl
      · rfl
      · rfl
  have stops : ∀ c ∈ (" */" : Text).head?, goesOn .word c = false := by
    rintro c ⟨⟩
    rfl
  have oneLine' : Text.lineFeeds (first :: (tail ++ "*/".toList)) = 0 := by
    rw [← List.cons_append, Text.lineFeeds_append, oneLine]
    rfl
  have whole : extent .word (tail ++ "*/".toList) = (tail ++ "*/".toList).length := by
    have size : extent .word (tail ++ "*/".toList ++ []) = (tail ++ "*/".toList).length :=
      extent_of_goesOn (by decide) goes' (by simp)
    rwa [List.append_nil] at size
  refine ⟨[], _, _, .word (first :: tail) line (List.cons_ne_nil _ _) plain, ?_, ?_⟩
  · rw [List.cons_append, scanFrom_whole line isKind whole, oneLine']
    rfl
  · rw [scanFrom_token line isKind _ (extent_of_goesOn (by decide) goes stops),
      scanFrom_space_mark, oneLine]
    rfl

private theorem extent_quoted_of_open (open_ : '"' ∉ tail) : extent .quoted tail = tail.length := by
  have whole : tail.takeWhile (· != '"') = tail := by
    refine List.takeWhile_eq_self_iff.mpr fun c member => ?_
    rw [bne_iff_ne]
    rintro rfl
    exact open_ member
  rw [extent, whole, if_neg (Nat.lt_irrefl _)]

private theorem endsAlike_of_open_quote (line : Nat) (open_ : '"' ∉ tail) :
    EndsAlike line ('"' :: tail) := by
  have scan : ∀ rest : Text, '"' ∉ rest → Text.lineFeeds rest = 0 →
      scanFrom line ('"' :: tail ++ rest) =
        [⟨.quoted, '"' :: tail ++ rest, line + Text.lineFeeds ('"' :: tail)⟩] := by
    intro rest unquoted oneLine
    have stillOpen : '"' ∉ tail ++ rest := fun member =>
      (List.mem_append.mp member).elim open_ unquoted
    have isQuoted : kindOf '"' = .quoted := rfl
    have token := scanFrom_whole line isQuoted (extent_quoted_of_open stillOpen)
    rw [← List.cons_append, Text.lineFeeds_append, oneLine] at token
    exact token
  refine ⟨[], _, _, .quote tail (line + Text.lineFeeds ('"' :: tail)), ?_, ?_⟩
  · exact scan _ (by decide) rfl
  · exact scan _ (by decide) rfl

private theorem extent_quoted_of_closed (closed : '"' ∈ tail)
    (whole : extent .quoted tail = tail.length) (rest : Text) :
    extent .quoted (tail ++ rest) = tail.length := by
  have stops : (tail.takeWhile (· != '"')).length < tail.length := by
    refine Nat.lt_of_le_of_ne (List.takeWhile_prefix _).length_le fun same => ?_
    have none := List.takeWhile_eq_self_iff.mp ((List.takeWhile_prefix _).eq_of_length same)
    simpa using none '"' closed
  have stops' : (tail.takeWhile (· != '"')).length < (tail ++ rest).length := by
    rw [List.length_append]
    omega
  rw [extent, if_pos stops] at whole
  rw [extent, takeWhile_append_of_lt rest stops, if_pos stops', whole]

private theorem endsAlike_of_whole (line : Nat)
    (whole : extent (kindOf first) tail = tail.length) : EndsAlike line (first :: tail) := by
  cases kind : kindOf first with
  | blank =>
    rw [kind, extent_eq (by decide)] at whole
    exact endsAlike_of_blank line kind
      (List.takeWhile_eq_self_iff.mp ((List.takeWhile_prefix _).eq_of_length whole))
  | word =>
    rw [kind, extent_eq (by decide)] at whole
    exact endsAlike_of_word line kind
      (List.takeWhile_eq_self_iff.mp ((List.takeWhile_prefix _).eq_of_length whole))
  | marker =>
    rw [kind] at whole
    exact endsAlike_of_complete line kind fun rest => whole
  | quoted =>
    rw [kind] at whole
    by_cases closed : '"' ∈ tail
    · exact endsAlike_of_complete line kind (extent_quoted_of_closed closed whole)
    · have isQuote : first = '"' := by
        by_contra plain
        exact kindOf_ne_quoted plain kind
      rw [isQuote]
      exact endsAlike_of_open_quote line closed

/-- A space before the closing mark changes the last tokens only. -/
theorem endsAlike (line : Nat) (body : Text) : EndsAlike line body := by
  by_cases nothing : body = []
  · rw [nothing]
    exact ⟨[], _, _, .apart line, scanFrom_mark line, scanFrom_space_mark line⟩
  · obtain ⟨front, first, tail, line', whole, scan⟩ := exists_last line nothing
    obtain ⟨more, without, spaced, ending, tokens, tokens'⟩ := endsAlike_of_whole line' whole
    refine ⟨front ++ more, without, spaced, ending, ?_, ?_⟩
    · rw [scan, tokens, List.append_assoc]
    · rw [scan, tokens', List.append_assoc]

end Endings

end Token

end Comment

end DocAudit
