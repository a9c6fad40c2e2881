import DocAudit.Comment.Token
import DocAudit.Proofs.Text
import Mathlib.Data.List.Basic

/-!
What scanning does to a text: nothing is lost, the kind of a token tells what its text looks like,
and a text may be scanned piece by piece where no token runs over the boundary.
-/

set_option autoImplicit false

namespace DocAudit.Comment.Token

/-- The text of some tokens in a row. -/
def join (tokens : List Token) : Text :=
  tokens.flatMap (·.text)

@[simp] theorem join_nil : join [] = [] := rfl

@[simp] theorem join_cons (t : Token) (tokens : List Token) :
    join (t :: tokens) = t.text ++ join tokens := rfl

@[simp] theorem join_append (tokens more : List Token) :
    join (tokens ++ more) = join tokens ++ join more :=
  List.flatMap_append

theorem scanFrom_cons (line : Nat) (first : Char) (rest : Text) :
    scanFrom line (first :: rest) =
      let text : Text := first :: rest.take (extent (kindOf first) rest)
      ⟨kindOf first, text, line + text.lineFeeds⟩ ::
        scanFrom (line + text.lineFeeds) (rest.drop (extent (kindOf first) rest)) := by
  rw [scanFrom]

@[simp] theorem scanFrom_nil (line : Nat) : scanFrom line [] = [] := by rw [scanFrom]

theorem extent_le (kind : TokenKind) (text : Text) : extent kind text ≤ text.length := by
  cases kind with
  | blank => exact (List.takeWhile_prefix _).length_le
  | marker => exact Nat.zero_le _
  | word => exact (List.takeWhile_prefix _).length_le
  | quoted =>
    have within : (text.takeWhile (· != '"')).length ≤ text.length :=
      (List.takeWhile_prefix _).length_le
    rw [extent]
    split
    · next closed => exact closed
    · exact within

/-- The texts of the tokens concatenate to the text that was scanned. -/
theorem join_scanFrom (line : Nat) (text : Text) : join (scanFrom line text) = text := by
  induction line, text using scanFrom.induct with
  | case1 line => simp
  | case2 line first rest kind size text line' ih =>
    rw [scanFrom_cons, join_cons, ih]
    simp [size, kind]

theorem join_scan (text : Text) : join (scan text) = text :=
  join_scanFrom 0 text

private theorem line_of_scanFrom {after : List Token} {t : Token} (line : Nat) (source : Text) :
    ∀ (before : List Token), scanFrom line source = before ++ t :: after →
      t.line = line + (join before).lineFeeds + t.text.lineFeeds := by
  induction line, source using scanFrom.induct with
  | case1 line =>
    intro before whole
    simp at whole
  | case2 line first rest _ _ _ _ ih =>
    intro before whole
    rw [scanFrom_cons] at whole
    cases before with
    | nil =>
      obtain ⟨rfl, -⟩ := List.cons.inj whole
      simp
    | cons u before =>
      obtain ⟨rfl, later⟩ := List.cons.inj whole
      rw [ih before later, join_cons, Text.lineFeeds_append, ← Nat.add_assoc]

/-- A token counts the line feeds up to its end. -/
theorem line_of_scan {text : Text} {before after : List Token} {t : Token}
    (whole : scan text = before ++ t :: after) :
    t.line = (join before).lineFeeds + t.text.lineFeeds := by
  rw [line_of_scanFrom 0 text before whole, Nat.zero_add]

theorem take_length_takeWhile (p : Char → Bool) (text : Text) :
    text.take (text.takeWhile p).length = text.takeWhile p :=
  (List.prefix_iff_eq_take.mp (List.takeWhile_prefix p)).symm

private theorem forall_mem_takeWhile (p : Char → Bool) (text : Text) :
    ∀ c ∈ text.takeWhile p, p c :=
  List.all_eq_true.mp List.all_takeWhile

section Kind

variable {first : Char}

theorem isBlank_of_kindOf (kind : kindOf first = .blank) : Text.isBlank first := by
  simp only [kindOf] at kind
  grind

theorem eq_quote_of_kindOf (kind : kindOf first = .quoted) : first = '"' := by
  simp only [kindOf] at kind
  grind

theorem isMarkerChar_of_kindOf (kind : kindOf first = .marker) : isMarkerChar first := by
  simp only [kindOf] at kind
  grind

theorem plain_of_kindOf (kind : kindOf first = .word) :
    ¬ Text.isBlank first ∧ ¬ isMarkerChar first ∧ first ≠ '"' := by
  simp only [kindOf] at kind
  grind

end Kind

/-- What the kind of a token says about its text. -/
structure Proper (t : Token) : Prop where
  text_ne_nil : t.text ≠ []
  blank : t.isBlank → ∀ c ∈ t.text, Text.isBlank c
  quoted : t.kind = .quoted → t.text.head? = some '"'
  marker : t.kind = .marker → ∃ c, t.text = [c] ∧ isMarkerChar c
  word : t.kind = .word → ∀ c ∈ t.text, !(Text.isBlank c || isMarkerChar c)

private theorem proper_of_kindOf (line : Nat) (first : Char) (rest : Text) :
    Proper ⟨kindOf first, first :: rest.take (extent (kindOf first) rest), line⟩ where
  text_ne_nil := by simp
  blank := by
    intro isBlank
    have kind : kindOf first = .blank := by simpa [Token.isBlank] using isBlank
    have blank := isBlank_of_kindOf kind
    simp only [kind, extent, take_length_takeWhile, List.mem_cons]
    rintro c (rfl | member)
    · exact blank
    · exact forall_mem_takeWhile _ _ c member
  quoted kind := congrArg some (eq_quote_of_kindOf kind)
  marker := by
    intro kind
    change kindOf first = .marker at kind
    exact ⟨first, by simp [kind, extent], isMarkerChar_of_kindOf kind⟩
  word := by
    intro kind
    change kindOf first = .word at kind
    have plain : !(Text.isBlank first || isMarkerChar first) := by
      simp [plain_of_kindOf kind]
    simp only [kind, extent, take_length_takeWhile, List.mem_cons]
    rintro c (rfl | member)
    · exact plain
    · exact forall_mem_takeWhile _ _ c member

theorem proper_of_mem_scanFrom {line : Nat} {text : Text} {t : Token}
    (member : t ∈ scanFrom line text) : t.Proper := by
  induction line, text using scanFrom.induct with
  | case1 line => simp at member
  | case2 line first rest kind size text line' ih =>
    rw [scanFrom_cons] at member
    rcases List.mem_cons.mp member with rfl | later
    · exact proper_of_kindOf _ first rest
    · exact ih later

theorem proper_of_mem_scan {text : Text} {t : Token} (member : t ∈ scan text) : t.Proper :=
  proper_of_mem_scanFrom member

/-- No token runs over the boundary between two characters when one is a marker or only one is
white space. -/
def Apart (a b : Char) : Prop :=
  isMarkerChar a ∨ isMarkerChar b ∨ Text.isBlank a ≠ Text.isBlank b

/-- The characters that a token of this kind may go on with, quotes apart. -/
def goesOn : TokenKind → Char → Bool
  | .blank, c => Text.isBlank c
  | .word, c => !(Text.isBlank c || isMarkerChar c)
  | _, _ => false

theorem extent_eq {kind : TokenKind} (unquoted : kind ≠ .quoted) (rest : Text) :
    extent kind rest = (rest.takeWhile (goesOn kind)).length := by
  cases kind with
  | blank => rfl
  | quoted => exact absurd rfl unquoted
  | marker => cases rest <;> rfl
  | word => rfl

theorem not_isBlank_of_isMarkerChar {c : Char} (marker : isMarkerChar c) :
    Text.isBlank c = false := by
  simp only [isMarkerChar, Bool.or_eq_true, beq_iff_eq] at marker
  rcases marker with (rfl | rfl) | rfl
  · decide
  · decide
  · decide

/-- Only markers hold marker characters, quotes apart. -/
theorem Proper.isMarkerChar_eq_false {t : Token} (proper : t.Proper) (unquoted : '"' ∉ t.text)
    (notMarker : t.kind ≠ .marker) : ∀ c ∈ t.text, isMarkerChar c = false := by
  intro c member
  cases kind : t.kind with
  | blank =>
    have blank := proper.blank (beq_iff_eq.mpr kind) c member
    by_contra marker
    rw [Bool.not_eq_false] at marker
    simp [not_isBlank_of_isMarkerChar marker] at blank
  | quoted => exact absurd (List.mem_of_head? (proper.quoted kind)) unquoted
  | marker => exact absurd kind notMarker
  | word =>
    have inside := proper.word kind c member
    simp only [Bool.not_eq_true', Bool.or_eq_false_iff] at inside
    exact inside.2

theorem kindOf_ne_quoted {first : Char} (plain : first ≠ '"') :
    kindOf first ≠ .quoted := by
  unfold kindOf
  grind

theorem goesOn_kindOf (first : Char) :
    goesOn (kindOf first) first ∨ kindOf first = .marker ∨ kindOf first = .quoted := by
  unfold kindOf goesOn
  grind

private theorem not_goesOn_of_apart {a b : Char} {kind : TokenKind} (apart : Apart a b)
    (before : goesOn kind a ∨ kind = .marker) : goesOn kind b = false := by
  cases kind with
  | blank =>
    have blank : Text.isBlank a := by simpa [goesOn] using before
    rcases apart with marker | marker | other
    · simp [not_isBlank_of_isMarkerChar marker] at blank
    · exact not_isBlank_of_isMarkerChar marker
    · exact Bool.eq_false_iff.mpr fun blank' => other (blank.trans blank'.symm)
  | word =>
    have inside : Text.isBlank a = false ∧ isMarkerChar a = false := by
      simpa [goesOn] using before
    rcases apart with marker | marker | other
    · simp [inside.2] at marker
    · simp [goesOn, marker]
    · have blank : Text.isBlank b := by simpa [inside.1] using other
      simp [goesOn, blank]
  | quoted => rfl
  | marker => rfl

private theorem extent_append {first : Char} {tail rest : Text} (plain : first ≠ '"')
    (apart : ∀ a ∈ (first :: tail).getLast?, ∀ b ∈ rest.head?, Apart a b) :
    extent (kindOf first) (tail ++ rest) = extent (kindOf first) tail := by
  rw [extent_eq (kindOf_ne_quoted plain), extent_eq (kindOf_ne_quoted plain),
    List.takeWhile_append]
  split_ifs with whole
  · have all : ∀ c ∈ tail, goesOn (kindOf first) c :=
      List.takeWhile_eq_self_iff.mp ((List.takeWhile_prefix _).eq_of_length whole)
    have last : goesOn (kindOf first) ((first :: tail).getLast (List.cons_ne_nil _ _)) ∨
        kindOf first = .marker := by
      rcases List.mem_cons.mp (List.getLast_mem (List.cons_ne_nil first tail)) with same | member
      · rw [same]
        rcases goesOn_kindOf first with goes | marker | quoted
        · exact Or.inl goes
        · exact Or.inr marker
        · exact absurd quoted (kindOf_ne_quoted plain)
      · exact Or.inl (all _ member)
    cases rest with
    | nil => simp [whole]
    | cons b rest =>
      have stops := not_goesOn_of_apart
        (apart _ (List.getLast?_eq_some_getLast (List.cons_ne_nil _ _)) b rfl) last
      rw [List.takeWhile_cons_of_neg (by simp [stops]), List.append_nil, whole]
  · rfl

/-- A text without quotes is scanned by itself, up to a boundary that no token runs over. -/
theorem scanFrom_append (line : Nat) {text rest : Text} (unquoted : '"' ∉ text)
    (apart : ∀ a ∈ text.getLast?, ∀ b ∈ rest.head?, Apart a b) :
    scanFrom line (text ++ rest) =
      scanFrom line text ++ scanFrom (line + text.lineFeeds) rest := by
  induction line, text using scanFrom.induct with
  | case1 line => simp [Text.lineFeeds]
  | case2 line first tail kind size text line' ih =>
    have plain : first ≠ '"' := by
      rintro rfl
      exact unquoted List.mem_cons_self
    have within := extent_le (kindOf first) tail
    have split : first :: tail = text ++ tail.drop size := by
      simp [text, size, kind]
    have unquoted' : '"' ∉ tail.drop size :=
      fun member => unquoted (List.mem_cons_of_mem first (List.mem_of_mem_drop member))
    have apart' : ∀ a ∈ (tail.drop size).getLast?, ∀ b ∈ rest.head?, Apart a b := by
      intro a last b head
      refine apart a ?_ b head
      rw [split, List.getLast?_append]
      simp [Option.mem_def.mp last]
    have later := ih unquoted' apart'
    rw [List.cons_append, scanFrom_cons, scanFrom_cons, extent_append plain apart,
      List.take_append_of_le_length within, List.drop_append_of_le_length within]
    simp only [List.cons_append, List.cons.injEq, true_and]
    rw [later, split, Text.lineFeeds_append]
    simp only [line', Nat.add_assoc, kind, size, text]

/-- A marker is a token by itself. -/
theorem scanFrom_marker_cons (line : Nat) {c : Char} (marker : isMarkerChar c) (rest : Text) :
    scanFrom line (c :: rest) = ⟨.marker, [c], line⟩ :: scanFrom line rest := by
  simp only [isMarkerChar, Bool.or_eq_true, beq_iff_eq] at marker
  rw [scanFrom_cons]
  rcases marker with (rfl | rfl) | rfl
  · rfl
  · rfl
  · rfl

/-- A text without white space and markers is one word, unless it starts with a quote. -/
theorem scanFrom_word (line : Nat) {text : Text} (ne_nil : text ≠ []) (unquoted : '"' ∉ text)
    (inside : ∀ c ∈ text, Text.isBlank c = false ∧ isMarkerChar c = false) :
    scanFrom line text = [⟨.word, text, line⟩] := by
  obtain ⟨first, tail, rfl⟩ := List.exists_cons_of_ne_nil ne_nil
  have kind : kindOf first = .word := by
    have plain : first ≠ '"' := by
      rintro rfl
      exact unquoted List.mem_cons_self
    simp [kindOf, inside first List.mem_cons_self, plain]
  have size : extent .word tail = tail.length := by
    refine congrArg _ (List.takeWhile_eq_self_iff.mpr fun c member => ?_)
    simp [inside c (List.mem_cons_of_mem first member)]
  have oneLine : Text.lineFeeds (first :: tail) = 0 :=
    Text.lineFeeds_eq_zero fun member => absurd (inside _ member).1 (by decide)
  rw [scanFrom_cons]
  simp [kind, size, oneLine]

/-- The line only counts; it does not change what the tokens are. -/
theorem map_text_scanFrom (line line' : Nat) (text : Text) :
    (scanFrom line text).map (·.text) = (scanFrom line' text).map (·.text) := by
  induction line, text using scanFrom.induct generalizing line' with
  | case1 line => simp
  | case2 line first rest kind size text next ih =>
    rw [scanFrom_cons, scanFrom_cons, List.map_cons, List.map_cons]
    exact congrArg _ (ih _)

end DocAudit.Comment.Token
