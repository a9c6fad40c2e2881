import DocAudit.Proofs.Comment.Scan

/-!
The tokens of a text are the only way to cut it correctly. A cut is correct if each piece has the form
of its kind and goes on as far as that kind goes.
-/

set_option autoImplicit false

namespace DocAudit.Comment.Token

/-- Whether a text may be a token of a kind where `rest` follows it. -/
inductive Fits : TokenKind → Text → Text → Prop where
  | blank {text rest : Text} : text ≠ [] → (∀ c ∈ text, Text.isBlank c) →
      (∀ c ∈ rest.head?, ¬ Text.isBlank c) → Fits .blank text rest
  /-- A quoted passage up to the next quote. -/
  | closed {inside rest : Text} : '"' ∉ inside → Fits .quoted ('"' :: inside ++ ['"']) rest
  /-- Without a next quote the passage runs to the end. -/
  | unclosed {inside : Text} : '"' ∉ inside → Fits .quoted ('"' :: inside) []
  | marker {c : Char} {rest : Text} : isMarkerChar c → Fits .marker [c] rest
  | word {text rest : Text} : text ≠ [] →
      (∀ c ∈ text, ¬ Text.isBlank c ∧ ¬ isMarkerChar c) → text.head? ≠ some '"' →
      (∀ c ∈ rest.head?, Text.isBlank c ∨ isMarkerChar c) → Fits .word text rest

/-- Whether a text falls into these pieces, in order, and each of them fits where it stands. -/
structure IsSegmentation (pieces : List (TokenKind × Text)) (text : Text) : Prop where
  whole : pieces.flatMap (·.2) = text
  fits : ∀ piece rest, piece :: rest <:+ pieces → Fits piece.1 piece.2 (rest.flatMap (·.2))

/-- A token without its line. -/
def piece (t : Token) : TokenKind × Text :=
  (t.kind, t.text)

section Piece

variable {kind : TokenKind} {first : Char} {tail text rest : Text} {p : Char → Bool}

/-- A run goes on exactly to where it cannot go on. -/
private theorem length_takeWhile_append_eq_iff :
    ((tail ++ rest).takeWhile p).length = tail.length ↔
      (∀ c ∈ tail, p c) ∧ ∀ c ∈ rest.head?, ¬ p c := by
  constructor
  · intro size
    have run : (tail ++ rest).takeWhile p = tail := by
      have isPrefix := List.prefix_of_prefix_length_le (List.takeWhile_prefix p)
        (List.prefix_append tail rest) size.le
      exact isPrefix.eq_of_length size
    have inside : ∀ c ∈ tail, p c := by
      rw [← run]
      exact fun c member => List.mem_takeWhile_imp member
    refine ⟨inside, fun c next more => ?_⟩
    obtain ⟨later, rfl⟩ : ∃ later, rest = c :: later := ⟨_, List.eq_cons_of_mem_head? next⟩
    rw [List.takeWhile_append_of_pos inside, List.takeWhile_cons_of_pos more] at size
    simp at size
  · rintro ⟨inside, stops⟩
    have none : rest.takeWhile p = [] := by
      cases rest with
      | nil => rfl
      | cons c later => exact List.takeWhile_cons_of_neg (stops c rfl)
    rw [List.takeWhile_append_of_pos inside, none, List.append_nil]

/-- A passage goes on up to its closing quote, or to the end if there is none. -/
private theorem extent_quoted_eq_iff :
    extent .quoted (tail ++ rest) = tail.length ↔
      (∃ inside, '"' ∉ inside ∧ tail = inside ++ ['"']) ∨ '"' ∉ tail ∧ rest = [] := by
  have unquoted_iff {inside : Text} : (∀ c ∈ inside, (c != '"') = true) ↔ '"' ∉ inside := by
    simp only [bne_iff_ne]
    exact ⟨fun others member => others _ member rfl,
      fun absent c member => ne_of_mem_of_not_mem member absent⟩
  have size_eq (text : Text) : extent .quoted text =
      if (text.takeWhile (· != '"')).length < text.length then
        (text.takeWhile (· != '"')).length + 1 else (text.takeWhile (· != '"')).length := rfl
  rw [size_eq]
  constructor
  · intro size
    split_ifs at size with closes
    · rcases List.eq_nil_or_concat' tail with rfl | ⟨inside, c, rfl⟩
      · simp at size
      · rw [List.length_append, List.length_singleton, List.append_assoc, Nat.add_right_cancel_iff,
          length_takeWhile_append_eq_iff] at size
        have quote : c = '"' := by simpa using size.2 c rfl
        exact Or.inl ⟨inside, unquoted_iff.mp size.1, by rw [quote]⟩
    · have all : rest.length = 0 := by
        rw [List.length_append] at closes
        omega
      exact Or.inr ⟨unquoted_iff.mp (length_takeWhile_append_eq_iff.mp size).1,
        List.eq_nil_of_length_eq_zero all⟩
  · rintro (⟨inside, unquoted, rfl⟩ | ⟨unquoted, rfl⟩)
    · have size : ((inside ++ ['"'] ++ rest).takeWhile (· != '"')).length = inside.length := by
        rw [List.append_assoc]
        exact length_takeWhile_append_eq_iff.mpr ⟨unquoted_iff.mpr unquoted, by simp⟩
      rw [size, if_pos (by simp), List.length_append, List.length_singleton]
    · have size : ((tail ++ []).takeWhile (· != '"')).length = tail.length :=
        length_takeWhile_append_eq_iff.mpr ⟨unquoted_iff.mpr unquoted, by simp⟩
      rw [size, if_neg (by simp)]

theorem Fits.ne_nil (fits : Fits kind text rest) : text ≠ [] := by
  cases fits with
  | blank ne_nil _ _ | word ne_nil _ _ _ => exact ne_nil
  | closed _ | unclosed _ | marker _ => exact List.cons_ne_nil _ _

private theorem extent_of_fits (fits : Fits kind (first :: tail) rest) :
    kind = kindOf first ∧ extent kind (tail ++ rest) = tail.length := by
  cases fits with
  | blank _ inside stops =>
    obtain ⟨blank, inside⟩ := List.forall_mem_cons.mp inside
    exact ⟨by simp [kindOf, blank], length_takeWhile_append_eq_iff.mpr ⟨inside, stops⟩⟩
  | closed unquoted => exact ⟨rfl, extent_quoted_eq_iff.mpr (Or.inl ⟨_, unquoted, rfl⟩)⟩
  | unclosed unquoted => exact ⟨rfl, extent_quoted_eq_iff.mpr (Or.inr ⟨unquoted, rfl⟩)⟩
  | marker isMarker =>
    have solid := not_isBlank_of_isMarkerChar isMarker
    have plain : first ≠ '"' := by
      rintro rfl
      exact absurd isMarker (by decide)
    exact ⟨by simp [kindOf, solid, plain, isMarker], rfl⟩
  | word _ inside plain stops =>
    obtain ⟨⟨solid, unmarked⟩, inside⟩ := List.forall_mem_cons.mp inside
    have plain : first ≠ '"' := by simpa using plain
    refine ⟨by simp [kindOf, solid, unmarked, plain], ?_⟩
    refine length_takeWhile_append_eq_iff.mpr ⟨fun c member => ?_, fun c next => ?_⟩
    · simpa using inside c member
    · simpa [or_iff_not_imp_left] using stops c next

private theorem fits_of_extent (size : extent (kindOf first) (tail ++ rest) = tail.length) :
    Fits (kindOf first) (first :: tail) rest := by
  cases kind : kindOf first with
  | blank =>
    rw [kind] at size
    obtain ⟨inside, stops⟩ := length_takeWhile_append_eq_iff.mp size
    exact .blank (List.cons_ne_nil _ _)
      (List.forall_mem_cons.mpr ⟨isBlank_of_kindOf kind, inside⟩) stops
  | quoted =>
    obtain rfl := eq_quote_of_kindOf kind
    rcases extent_quoted_eq_iff.mp size with ⟨inside, unquoted, rfl⟩ | ⟨unquoted, rfl⟩
    · exact .closed unquoted
    · exact .unclosed unquoted
  | marker =>
    rw [kind] at size
    obtain rfl := List.eq_nil_of_length_eq_zero size.symm
    exact .marker (isMarkerChar_of_kindOf kind)
  | word =>
    obtain ⟨solid, unmarked, unquoted⟩ := plain_of_kindOf kind
    rw [kind] at size
    obtain ⟨inside, stops⟩ := length_takeWhile_append_eq_iff.mp size
    refine .word (List.cons_ne_nil _ _)
      (List.forall_mem_cons.mpr ⟨⟨solid, unmarked⟩, fun c member => ?_⟩)
      (by simpa using unquoted) fun c next => ?_
    · simpa using inside c member
    · simpa [or_iff_not_imp_left] using stops c next

/-- One piece fits at the start of a text: that of the kind of its first character, as far as this kind
goes. -/
theorem append_fits_iff {later : Text} :
    first :: rest = text ++ later ∧ Fits kind text later ↔
      (kind, text) = (kindOf first, first :: rest.take (extent (kindOf first) rest)) ∧
        later = rest.drop (extent (kindOf first) rest) := by
  constructor
  · rintro ⟨split, fits⟩
    obtain ⟨c, tail, rfl⟩ := List.exists_cons_of_ne_nil fits.ne_nil
    obtain ⟨rfl, rfl⟩ := List.cons.inj split
    obtain ⟨rfl, size⟩ := extent_of_fits fits
    have here : extent (kindOf first) (tail.append later) = tail.length := size
    rw [here]
    exact ⟨by simp, by simp⟩
  · rintro ⟨same, rfl⟩
    obtain ⟨rfl, rfl⟩ := Prod.mk.inj same
    refine ⟨by simp, fits_of_extent ?_⟩
    rw [List.take_append_drop, List.length_take_of_le (extent_le _ rest)]

end Piece

section Whole

variable {pieces : List (TokenKind × Text)} {text : Text}

private theorem isSegmentation_nil_iff : IsSegmentation [] text ↔ text = [] := by
  constructor
  · exact fun cut => cut.whole.symm
  · rintro rfl
    exact ⟨rfl, fun piece rest isSuffix => by simp at isSuffix⟩

private theorem isSegmentation_cons_iff {piece : TokenKind × Text} :
    IsSegmentation (piece :: pieces) text ↔
      ∃ rest, text = piece.2 ++ rest ∧ Fits piece.1 piece.2 rest ∧ IsSegmentation pieces rest := by
  constructor
  · intro cut
    have whole : text = piece.2 ++ pieces.flatMap (·.2) := by rw [← cut.whole, List.flatMap_cons]
    exact ⟨_, whole, cut.fits piece pieces List.suffix_rfl, rfl,
      fun other rest isSuffix => cut.fits other rest (isSuffix.trans (List.suffix_cons _ _))⟩
  · rintro ⟨rest, rfl, fits, cut⟩
    refine ⟨congrArg (piece.2 ++ ·) cut.whole, fun other later isSuffix => ?_⟩
    rcases List.suffix_cons_iff.mp isSuffix with same | within
    · obtain ⟨rfl, rfl⟩ := List.cons.inj same
      rwa [cut.whole]
    · exact cut.fits other later within

/-- The first character decides on the first piece, and what follows that piece on the others. -/
private theorem isSegmentation_iff_scanFrom (line : Nat) (text : Text)
    (pieces : List (TokenKind × Text)) :
    IsSegmentation pieces text ↔ pieces = (scanFrom line text).map piece := by
  induction line, text using scanFrom.induct generalizing pieces with
  | case1 line =>
    rw [scanFrom_nil, List.map_nil]
    cases pieces with
    | nil => simp [isSegmentation_nil_iff]
    | cons first pieces =>
      refine iff_of_false (fun cut => ?_) (List.cons_ne_nil _ _)
      obtain ⟨rest, whole, fits, -⟩ := isSegmentation_cons_iff.mp cut
      exact fits.ne_nil (List.append_eq_nil_iff.mp whole.symm).1
  | case2 line first rest kind size text line' ih =>
    rw [scanFrom_cons, List.map_cons]
    cases pieces with
    | nil => simp [isSegmentation_nil_iff]
    | cons token pieces =>
      rw [List.cons.injEq, ← ih, isSegmentation_cons_iff]
      simp only [← and_assoc, append_fits_iff]
      constructor
      · rintro ⟨_, ⟨same, rfl⟩, cut⟩
        exact ⟨same, cut⟩
      · rintro ⟨same, cut⟩
        exact ⟨_, ⟨same, rfl⟩, cut⟩

end Whole

/-- The tokens of a text are its one correct segmentation, and each counts the line feeds of the text
up to its end. -/
theorem isSegmentation_iff_scan (text : Text) :
    (∀ pieces, IsSegmentation pieces text ↔ pieces = (scan text).map piece) ∧
      ∀ before t after, scan text = before ++ t :: after →
        text = join (before ++ [t]) ++ join after ∧
          t.line = Text.lineFeeds (join (before ++ [t])) := by
  refine ⟨isSegmentation_iff_scanFrom 0 text, fun before t after tokens => ⟨?_, ?_⟩⟩
  · rw [← join_append, List.append_assoc, List.singleton_append, ← tokens, join_scan]
  · rw [line_of_scan tokens, join_append, Text.lineFeeds_append, join_cons, join_nil,
      List.append_nil]

/-- A word may hold a quote, and a quote that starts a token and is not closed takes the rest. -/
theorem isSegmentation_open_quote :
    let text : Text := "a\"b \x7b@\n\"c d"
    let front : List Token := (scan text).take 5
    let last : Token := ⟨.quoted, "\"c d", 1⟩
    IsSegmentation [(.word, "a\"b"), (.blank, " "), (.marker, "\x7b"), (.marker, "@"), (.blank, "\n"),
        (.quoted, "\"c d")] text ∧
      scan text = front ++ [last] ∧ last.line = Text.lineFeeds (join (front ++ [last])) := by
  intro text front last
  have tokens : scan text = front ++ [last] := by decide +kernel
  exact ⟨((isSegmentation_iff_scan text).1 _).mpr (by decide +kernel), tokens,
    ((isSegmentation_iff_scan text).2 front last [] tokens).2⟩

end DocAudit.Comment.Token
