import DocAudit.Proofs.Text
import DocAudit.Signature

/-!
A walk along a parameter list, one parameter at a time. It ends on every text. Between two commas it
finds the first word, which is the type, and takes the second for a name; it takes a third one for
another type.
-/

set_option autoImplicit false

namespace DocAudit.Signature

section Walk

/-- White space, commas and closing parentheses end a word. -/
def isStop (c : Char) : Bool :=
  Text.isBlank c || c == ',' || c == ')'

/-- What follows a comma. Nothing follows a closing parenthesis. -/
def afterStop? : Text → Option Text
  | ',' :: rest => some rest
  | ')' :: _ => some []
  | _ => none

/-- What follows a word and the white space after it. -/
def afterWord (t : Text) : Text :=
  Text.trimLeft (t.dropWhile (!isStop ·))

/-- What follows the name of a parameter and the comma after it, or at once the comma. -/
def afterName (t : Text) : Text :=
  (afterStop? t).getD ((afterStop? (afterWord t)).getD (afterWord t))

/-- One turn of the walk finds a word, which is empty in front of a comma or parenthesis, and leaves
what follows the parameter; at the end it finds nothing. -/
def turn? (t : Text) : Option (Text × Text) :=
  let rest := t.trimLeft
  if rest.isEmpty then none else some (rest.takeWhile (!isStop ·), afterName (afterWord rest))

/-- The walk from here finds these names, one after another, and then ends. -/
inductive Walk : Text → List Text → Prop
  | ends {t : Text} : turn? t = none → Walk t []
  | passes {t rest : Text} {names : List Text} :
    turn? t = some ([], rest) → Walk rest names → Walk t names
  | finds {t name rest : Text} {names : List Text} :
    turn? t = some (name, rest) → name ≠ [] → Walk rest names → Walk t (name :: names)

end Walk

/-- What follows the opening parenthesis of a list, if it has one. -/
def body (list : Text) : Text :=
  match list.trimLeft with
  | '(' :: rest => rest
  | rest => rest

/-- The texts between the commas of a parameter list. -/
def pieces (list : Text) : List Text :=
  List.splitOn ',' (inside list)

section Read

variable {read : Text → List Text} {f : List Text → List Text} {t part word gap rest : Text}
  {name : Text} {c : Char}

/-- The names from here on, where the text up to the next comma is read in its own way. -/
private def readBy (read : Text → List Text) (t : Text) : List Text :=
  match List.splitOn ',' (t.takeWhile (· != ')')) with
  | [] => []
  | first :: others => read first ++ others.flatMap fun piece => everySecond (Text.words piece)

/-- The names from here on, in front of a type. -/
private def typesFrom : Text → List Text :=
  readBy fun piece => everySecond (Text.words piece)

/-- The names from here on, behind a type. -/
private def namesFrom : Text → List Text :=
  readBy fun piece => everySecond (Text.words piece).tail

private theorem readBy_nil : readBy read [] = read [] :=
  List.append_nil _

private theorem readBy_paren : readBy read (')' :: rest) = read [] :=
  List.append_nil _

private theorem readBy_comma : readBy read (',' :: rest) = read [] ++ typesFrom rest := by
  have cut : (',' :: rest).takeWhile (· != ')') = ',' :: rest.takeWhile (· != ')') := rfl
  rw [readBy, cut, List.splitOn_cons_eq_if_modifyHead, if_pos (beq_self_eq_true ',')]
  cases pieces : List.splitOn ',' (rest.takeWhile (· != ')')) with
  | nil => exact absurd pieces (List.splitOn_ne_nil ',' _)
  | cons first others => simp only [typesFrom, readBy, pieces, List.flatMap_cons]

/-- What stands before the next comma belongs to the first piece. -/
private theorem readBy_append (inside : ∀ c ∈ part, c ≠ ',' ∧ c ≠ ')') :
    readBy read (part ++ rest) = readBy (fun piece => read (part ++ piece)) rest := by
  have open' : ∀ c ∈ part, (c != ')') = true := fun c member => bne_iff_ne.mpr (inside c member).2
  have noComma : ',' ∉ part := fun member => (inside ',' member).1 rfl
  rw [readBy, readBy, List.takeWhile_append_of_pos open', Text.splitOn_append_of_not_mem noComma]
  cases List.splitOn ',' (rest.takeWhile (· != ')')) <;> rfl

private theorem plain_of_isBlank (blank : Text.isBlank c) : c ≠ ',' ∧ c ≠ ')' := by
  constructor <;> rintro rfl <;> exact absurd blank (by decide)

private theorem readBy_gap (blank : ∀ c ∈ gap, Text.isBlank c) :
    readBy (fun piece => f (Text.words piece)) (gap ++ t) =
      readBy (fun piece => f (Text.words piece)) t := by
  have same : (fun piece => f (Text.words (gap ++ piece))) = fun piece => f (Text.words piece) :=
    funext fun piece => by rw [Text.words_blank_append blank]
  rw [readBy_append fun c member => plain_of_isBlank (blank c member), same]

private theorem readBy_trimLeft :
    readBy (fun piece => f (Text.words piece)) t.trimLeft =
      readBy (fun piece => f (Text.words piece)) t := by
  obtain ⟨gap, blank, whole⟩ := Text.exists_trimLeft t
  rw [← readBy_gap blank, ← whole]

/-- A word is the first of its piece, if it ends where the rest starts. -/
private theorem readBy_word (ne_nil : word ≠ []) (solid : ∀ c ∈ word, ¬ isStop c)
    (apart : ∀ c ∈ rest.head?, isStop c) :
    readBy (fun piece => f (Text.words piece)) (word ++ rest) =
      readBy (fun piece => f (word :: Text.words piece)) rest := by
  have visible : ∀ c ∈ word, ¬ Text.isBlank c := by
    intro c member blank
    exact solid c member (by simp [isStop, blank])
  have inside : ∀ c ∈ word, c ≠ ',' ∧ c ≠ ')' := by
    intro c member
    constructor <;> rintro rfl <;> exact solid _ member (by decide)
  have alone : Text.words word = [word] := Text.words_eq_singleton ne_nil visible
  rw [readBy_append inside]
  cases rest with
  | nil =>
    simp only [readBy_nil, List.append_nil, alone]
    rfl
  | cons c rest =>
    have stop : isStop c := apart c rfl
    simp only [isStop, Bool.or_eq_true, beq_iff_eq] at stop
    rcases stop with (blank | rfl) | rfl
    · have single : ∀ x ∈ [c], Text.isBlank x := by simpa using blank
      have inside' : ∀ x ∈ [c], x ≠ ',' ∧ x ≠ ')' := fun x member => plain_of_isBlank (single x member)
      have split : c :: rest = [c] ++ rest := rfl
      have words (piece : Text) : Text.words (word ++ ([c] ++ piece)) = word :: Text.words piece := by
        rw [← List.append_assoc, Text.words_append_gap word piece (List.cons_ne_nil c []) single,
          alone]
        rfl
      rw [split, readBy_append inside', readBy_append inside']
      simp only [words, Text.words_blank_append single]
    · simp only [readBy_comma, List.append_nil, alone]
      rfl
    · simp only [readBy_paren, List.append_nil, alone]
      rfl

private theorem everySecond_cons (word : Text) (words : List Text) :
    everySecond (word :: words) = word :: everySecond words.tail := by
  cases words <;> rfl

private theorem readBy_cons : readBy (fun piece => name :: read piece) t = name :: readBy read t := by
  rw [readBy, readBy]
  cases pieces : List.splitOn ',' (t.takeWhile (· != ')')) with
  | nil => exact absurd pieces (List.splitOn_ne_nil ',' _)
  | cons first others => rfl

private theorem typesFrom_word (ne_nil : word ≠ []) (solid : ∀ c ∈ word, ¬ isStop c)
    (apart : ∀ c ∈ rest.head?, isStop c) : typesFrom (word ++ rest) = word :: namesFrom rest := by
  have first := @readBy_word everySecond _ _ ne_nil solid apart
  simp only [everySecond_cons, readBy_cons] at first
  exact first

private theorem namesFrom_word (ne_nil : word ≠ []) (solid : ∀ c ∈ word, ¬ isStop c)
    (apart : ∀ c ∈ rest.head?, isStop c) : namesFrom (word ++ rest) = typesFrom rest :=
  @readBy_word (fun words => everySecond words.tail) _ _ ne_nil solid apart

private theorem typesFrom_nil : typesFrom [] = [] :=
  readBy_nil

private theorem typesFrom_comma : typesFrom (',' :: rest) = typesFrom rest :=
  readBy_comma

private theorem typesFrom_paren : typesFrom (')' :: rest) = [] :=
  readBy_paren

private theorem typesFrom_afterStop : typesFrom ((afterStop? t).getD t) = typesFrom t := by
  unfold afterStop?
  split
  · exact typesFrom_comma.symm
  · exact typesFrom_nil.trans typesFrom_paren.symm
  · rfl

private theorem split_word (t : Text) :
    t.takeWhile (!isStop ·) ++ t.dropWhile (!isStop ·) = t ∧
      (∀ c ∈ t.takeWhile (!isStop ·), ¬ isStop c) ∧
      ∀ c ∈ (t.dropWhile (!isStop ·)).head?, isStop c := by
  refine ⟨List.takeWhile_append_dropWhile, fun c member => ?_, fun c found => ?_⟩
  · simpa using List.mem_takeWhile_imp member
  · have first := List.head?_dropWhile_not (!isStop ·) t
    rw [Option.mem_def.mp found] at first
    simpa using first

private theorem typesFrom_trimLeft : typesFrom t.trimLeft = typesFrom t :=
  @readBy_trimLeft everySecond t

private theorem namesFrom_trimLeft : namesFrom t.trimLeft = namesFrom t :=
  @readBy_trimLeft (fun words => everySecond words.tail) t

private theorem typesFrom_of_word (ne_nil : t.takeWhile (!isStop ·) ≠ []) :
    typesFrom t = t.takeWhile (!isStop ·) :: namesFrom (afterWord t) := by
  obtain ⟨whole, solid, apart⟩ := split_word t
  have word := typesFrom_word ne_nil solid apart
  rw [whole] at word
  rw [word, afterWord, namesFrom_trimLeft]

private theorem namesFrom_of_word (ne_nil : t.takeWhile (!isStop ·) ≠ []) :
    namesFrom t = typesFrom (afterWord t) := by
  obtain ⟨whole, solid, apart⟩ := split_word t
  have word := namesFrom_word ne_nil solid apart
  rw [whole] at word
  rw [word, afterWord, typesFrom_trimLeft]

private theorem afterStop?_of_word (ne_nil : t.takeWhile (!isStop ·) ≠ []) :
    afterStop? t = none := by
  unfold afterStop?
  split
  · exact absurd rfl ne_nil
  · exact absurd rfl ne_nil
  · rfl

private theorem cases_of_no_word (visible : ∀ c ∈ t.head?, ¬ Text.isBlank c)
    (noWord : t.takeWhile (!isStop ·) = []) :
    t = [] ∨ (∃ rest, t = ',' :: rest) ∨ ∃ rest, t = ')' :: rest := by
  cases t with
  | nil => exact Or.inl rfl
  | cons c rest =>
    have blank : Text.isBlank c = false := by simpa using visible c rfl
    have stop : isStop c := by
      by_contra notStop
      rw [List.takeWhile_cons_of_pos (by simpa using notStop)] at noWord
      exact List.cons_ne_nil c _ noWord
    simp only [isStop, blank, Bool.false_or, Bool.or_eq_true, beq_iff_eq] at stop
    rcases stop with rfl | rfl
    · exact Or.inr (Or.inl ⟨rest, rfl⟩)
    · exact Or.inr (Or.inr ⟨rest, rfl⟩)

private theorem namesFrom_eq (visible : ∀ c ∈ t.head?, ¬ Text.isBlank c) :
    namesFrom t = typesFrom (afterName t) := by
  by_cases noWord : t.takeWhile (!isStop ·) = []
  · rcases cases_of_no_word visible noWord with rfl | ⟨rest, rfl⟩ | ⟨rest, rfl⟩
    · rfl
    · exact readBy_comma
    · exact readBy_paren
  -- One more word is the name, whatever comes after it.
  · rw [namesFrom_of_word noWord, afterName, afterStop?_of_word noWord, Option.getD_none,
      typesFrom_afterStop]

private theorem visible_trimLeft (t : Text) : ∀ c ∈ t.trimLeft.head?, ¬ Text.isBlank c := by
  intro c found
  have first := List.head?_dropWhile_not Text.isBlank t
  rw [Text.trimLeft, Option.mem_def] at found
  rw [found] at first
  simpa using first

private theorem of_turn? (turn : turn? t = some (name, rest)) :
    t.trimLeft ≠ [] ∧ name = t.trimLeft.takeWhile (!isStop ·) ∧
      rest = afterName (afterWord t.trimLeft) := by
  simp only [turn?, List.isEmpty_iff] at turn
  split_ifs at turn with nothing
  obtain ⟨rfl, rfl⟩ := Prod.mk.inj (Option.some.inj turn)
  exact ⟨nothing, rfl, rfl⟩

/-- A turn finds the next name, if one comes before the next comma, and leaves the others. -/
private theorem typesFrom_of_turn? (turn : turn? t = some (name, rest)) :
    typesFrom t = if name = [] then typesFrom rest else name :: typesFrom rest := by
  obtain ⟨ne_nil, rfl, rfl⟩ := of_turn? turn
  rw [← typesFrom_trimLeft]
  split_ifs with noWord
  · rcases cases_of_no_word (visible_trimLeft t) noWord with nothing | ⟨rest, comma⟩ | ⟨rest, paren⟩
    · exact absurd nothing ne_nil
    · rw [comma]
      exact typesFrom_comma
    · rw [paren]
      exact typesFrom_paren
  · have visible : ∀ c ∈ (afterWord t.trimLeft).head?, ¬ Text.isBlank c := visible_trimLeft _
    rw [typesFrom_of_word noWord, namesFrom_eq visible]

private theorem length_of_afterStop? (stop : afterStop? t = some rest) :
    rest.length < t.length := by
  unfold afterStop? at stop
  split at stop
  · obtain rfl := Option.some.inj stop
    exact Nat.lt_succ_self _
  · obtain rfl := Option.some.inj stop
    exact Nat.succ_pos _
  · exact absurd stop (by simp)

private theorem length_afterStop_le (t : Text) : ((afterStop? t).getD t).length ≤ t.length := by
  cases stop : afterStop? t with
  | none => exact le_rfl
  | some rest => exact (length_of_afterStop? stop).le

private theorem length_afterWord_le (t : Text) : (afterWord t).length ≤ t.length :=
  (List.length_dropWhile_le _ _).trans (List.length_dropWhile_le _ _)

private theorem length_afterName_le (t : Text) : (afterName t).length ≤ t.length := by
  cases stop : afterStop? t with
  | none =>
    rw [afterName, stop, Option.getD_none]
    exact (length_afterStop_le _).trans (length_afterWord_le t)
  | some rest =>
    rw [afterName, stop, Option.getD_some]
    exact (length_of_afterStop? stop).le

private theorem length_afterWord_lt (ne_nil : t.takeWhile (!isStop ·) ≠ []) :
    (afterWord t).length < t.length := by
  have parts := congrArg List.length (split_word t).1
  rw [List.length_append] at parts
  have some := List.length_pos_iff.mpr ne_nil
  have trimmed : (afterWord t).length ≤ (t.dropWhile (!isStop ·)).length :=
    List.length_dropWhile_le _ _
  omega

private theorem length_of_turn? (turn : turn? t = some (name, rest)) : rest.length < t.length := by
  obtain ⟨ne_nil, -, rfl⟩ := of_turn? turn
  have trimmed : t.trimLeft.length ≤ t.length := List.length_dropWhile_le _ _
  refine lt_of_lt_of_le ?_ trimmed
  by_cases noWord : t.trimLeft.takeWhile (!isStop ·) = []
  · rcases cases_of_no_word (visible_trimLeft t) noWord with nothing | ⟨rest, comma⟩ | ⟨rest, paren⟩
    · exact absurd nothing ne_nil
    · rw [comma]
      exact Nat.lt_succ_self rest.length
    · rw [paren]
      exact Nat.succ_pos rest.length
  · exact (length_afterName_le _).trans_lt (length_afterWord_lt noWord)

private theorem typesFrom_of_turn?_none (turn : turn? t = none) : typesFrom t = [] := by
  simp only [turn?, List.isEmpty_iff] at turn
  split_ifs at turn with nothing
  rw [← typesFrom_trimLeft, nothing, typesFrom_nil]

private theorem walk_typesFrom (t : Text) : Walk t (typesFrom t) := by
  cases turn : turn? t with
  | none =>
    rw [typesFrom_of_turn?_none turn]
    exact Walk.ends turn
  | some found =>
    obtain ⟨name, rest⟩ := found
    have later := walk_typesFrom rest
    rw [typesFrom_of_turn? turn]
    split_ifs with noWord
    · subst noWord
      exact Walk.passes turn later
    · exact Walk.finds turn noWord later
termination_by t.length
decreasing_by exact length_of_turn? turn

/-- The walk ends, after what it finds from here on. -/
private theorem walk_iff {names : List Text} : Walk t names ↔ names = typesFrom t := by
  constructor
  · intro walk
    induction walk with
    | ends turn => exact (typesFrom_of_turn?_none turn).symm
    | passes turn _ ih => rw [ih, typesFrom_of_turn? turn, if_pos rfl]
    | finds turn found _ ih => rw [ih, typesFrom_of_turn? turn, if_neg found]
  · rintro rfl
    exact walk_typesFrom t

private theorem typesFrom_body (list : Text) : typesFrom (body list) = typeNames list := by
  have whole : inside list = (body list).takeWhile (· != ')') := rfl
  rw [typeNames, whole, typesFrom, readBy]
  cases List.splitOn ',' ((body list).takeWhile (· != ')')) <;> rfl

end Read

section FirstWords

variable {α : Type} {groups : List (List α)}

private theorem heads_sublist_everySecond (groups : List (List α)) :
    (groups.filterMap List.head?).Sublist (groups.flatMap everySecond) := by
  induction groups with
  | nil => exact List.Sublist.refl []
  | cons group groups ih =>
    match group with
    | [] => exact ih
    | [a] => exact ih.cons_cons a
    | a :: _ :: rest => exact (ih.trans (List.sublist_append_right (everySecond rest) _)).cons_cons a

private theorem everySecond_eq_nil_iff {as : List α} : everySecond as = [] ↔ as = [] := by
  cases as using everySecond.fun_cases <;> simp [everySecond]

/-- From the third word on every second one is a name too many. -/
private theorem everySecond_eq_heads_iff :
    groups.flatMap everySecond = groups.filterMap List.head? ↔
      ∀ group ∈ groups, group.length ≤ 2 := by
  induction groups with
  | nil => exact ⟨fun _ _ none => absurd none List.not_mem_nil, fun _ => rfl⟩
  | cons group groups ih =>
    rw [List.forall_mem_cons, ← ih]
    match group with
    | [] => simp [everySecond, List.filterMap_cons]
    | [a] => simp [everySecond]
    | a :: _ :: rest =>
      have fewer := (heads_sublist_everySecond groups).length_le
      simp only [List.flatMap_cons, List.filterMap_cons, List.head?_cons, everySecond,
        List.cons_append, List.cons.injEq, true_and, List.length_cons]
      constructor
      · intro same
        have lengths := congrArg List.length same
        rw [List.length_append] at lengths
        have noMore : everySecond rest = [] := List.length_eq_zero_iff.mp (by omega)
        rw [noMore, List.nil_append] at same
        rw [everySecond_eq_nil_iff.mp noMore]
        exact ⟨le_rfl, same⟩
      · rintro ⟨short, same⟩
        have noMore : rest = [] := List.length_eq_zero_iff.mp (by omega)
        rw [noMore]
        exact same

end FirstWords

/-- The first word of each piece that has one. -/
def firstWords (list : Text) : List Text :=
  (pieces list).filterMap fun piece => (Text.words piece).head?

/-- The walk ends on every parameter list, and finds the first word of each piece that is not blank, in
order. It finds nothing else exactly if no piece has a third word. -/
theorem walk_finds_firstWords (list : Text) :
    (∀ names, Walk (body list) names ↔ names = typeNames list) ∧
      (firstWords list).Sublist (typeNames list) ∧
      (typeNames list = firstWords list ↔ ∀ piece ∈ pieces list, (Text.words piece).length ≤ 2) := by
  have found : typeNames list = ((pieces list).map Text.words).flatMap everySecond := by
    rw [List.flatMap_map]
    rfl
  have first : firstWords list = ((pieces list).map Text.words).filterMap List.head? := by
    rw [List.filterMap_map]
    rfl
  refine ⟨fun names => ?_, ?_, ?_⟩
  · rw [walk_iff, typesFrom_body]
  · rw [found, first]
    exact heads_sublist_everySecond _
  · rw [found, first, everySecond_eq_heads_iff, List.forall_mem_map]

/-- The name of a parameter of variable arity that is written apart from the dots is read as a type. -/
theorem walk_finds_name_behind_dots :
    Walk (body "(String ... names)".toList) ["String".toList, "names".toList] ∧
      ¬ Walk (body "(String ... names)".toList) (firstWords "(String ... names)".toList) := by
  have first : firstWords "(String ... names)".toList = ["String".toList] := by decide +kernel
  have types : typeNames "(String ... names)".toList = ["String".toList, "names".toList] := by
    decide +kernel
  rw [first, walk_iff, walk_iff, typesFrom_body, types]
  decide +kernel

end DocAudit.Signature
