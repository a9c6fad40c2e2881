import DocAudit.Configuration
import DocAudit.Proofs.Traversal

/-!
The settings of each file. A configuration is usable exactly when all its patterns are globs, and
each setting is decided on its own: what is forced wins over the overrides, and of these the last
that selects the file and has a value.
-/

set_option autoImplicit false

namespace DocAudit

namespace PathFilter

/-- The pattern excludes the paths that it matches. -/
def Excludes (pattern : Text) : Prop :=
  pattern.head? = some '!'

instance (pattern : Text) : Decidable (Excludes pattern) :=
  inferInstanceAs (Decidable (_ = _))

/-- A pattern without the exclamation mark that makes it exclude. -/
def bare : Text → Text
  | '!' :: pattern => pattern
  | pattern => pattern

/-- The pattern without its mark is a glob that matches the path. -/
def Hits (pattern path : Text) : Prop :=
  ∃ glob, Glob.read (bare pattern) = .ok glob ∧ glob.isMatch true path

instance (pattern path : Text) : Decidable (Hits pattern path) :=
  decidable_of_iff ((Glob.read (bare pattern)).toOption.any (·.isMatch true path) = true) <| by
    unfold Hits
    cases Glob.read (bare pattern) <;> simp [Except.toOption]

end PathFilter

namespace Override

open PathFilter (Excludes Hits bare)

/-- Every pattern is a glob. -/
def IsValid (o : Override) : Prop :=
  ∀ pattern ∈ o.paths, ∃ glob, Glob.read (bare pattern) = .ok glob

instance (o : Override) : Decidable o.IsValid :=
  decidable_of_iff (∀ pattern ∈ o.paths, (Glob.read (bare pattern)).toOption.isSome) <| by
    refine forall₂_congr fun pattern _ => ?_
    cases Glob.read (bare pattern) <;> simp [Except.toOption]

/-- Some pattern includes the path, and none excludes it. Where in the list they stand does not
matter. -/
def Selects (o : Override) (path : Text) : Prop :=
  (∃ pattern ∈ o.paths, ¬ Excludes pattern ∧ Hits pattern path) ∧
    ∀ pattern ∈ o.paths, Excludes pattern → ¬ Hits pattern path

instance (o : Override) (path : Text) : Decidable (o.Selects path) :=
  inferInstanceAs (Decidable (_ ∧ _))

end Override

namespace FileSettings

variable {α : Type}

/-- The last override that selects the path and has a value for a setting has this one. -/
def LastSets (setting : SettingsPatch → Option α) (overrides : List Override) (path : Text)
    (value : α) : Prop :=
  ∃ before o after, overrides = before ++ o :: after ∧ o.Selects path ∧
    setting o.patch = some value ∧ ∀ later ∈ after, later.Selects path → setting later.patch = none

/-- No override that selects the path has a value for a setting. -/
def NoneSets (setting : SettingsPatch → Option α) (overrides : List Override) (path : Text) : Prop :=
  ∀ o ∈ overrides, o.Selects path → setting o.patch = none

/-- The value that a setting has in the end: what is forced, else the value of the last override
that selects the path and has one, else the value for all files. -/
inductive Decided (setting : SettingsPatch → Option α) (forced : SettingsPatch)
    (overrides : List Override) (path : Text) (base : α) : α → Prop where
  | byForce {value : α} : setting forced = some value →
      Decided setting forced overrides path base value
  | byOverride {value : α} : setting forced = none → LastSets setting overrides path value →
      Decided setting forced overrides path base value
  | byDefault : setting forced = none → NoneSets setting overrides path →
      Decided setting forced overrides path base base

end FileSettings

namespace PathFilter

section Read

variable {pattern path : Text} {rest paths : List Text} {filter : PathFilter} {glob : Glob}

private theorem bare_of_not_excludes (includes : ¬ Excludes pattern) : bare pattern = pattern := by
  unfold bare
  split
  · exact absurd rfl includes
  · rfl

private theorem readGlob_eq_ok_iff : readGlob pattern = .ok glob ↔ Glob.read pattern = .ok glob := by
  unfold readGlob
  cases Glob.read pattern <;> simp [Except.mapError]

/-- A pattern is read without its mark, which decides where its glob goes. -/
private theorem ofPatterns_cons_eq_ok_iff :
    ofPatterns (pattern :: rest) = .ok filter ↔
      ∃ glob others, Glob.read (bare pattern) = .ok glob ∧ ofPatterns rest = .ok others ∧
        filter =
          if Excludes pattern then { others with excluded := glob :: others.excluded }
          else { others with included := glob :: others.included } := by
  simp only [← readGlob_eq_ok_iff]
  by_cases excludes : Excludes pattern
  · obtain ⟨tail, rfl⟩ : ∃ tail, pattern = '!' :: tail := ⟨_, List.eq_cons_of_mem_head? excludes⟩
    simp only [if_pos excludes]
    rw [ofPatterns, bare]
    cases readGlob tail with
    | error _ => simp [bind, Except.bind]
    | ok glob =>
      cases ofPatterns rest <;> simp [bind, Except.bind, pure, Except.pure, eq_comm]
  · have noMark : ∀ tail, pattern ≠ '!' :: tail := by
      rintro tail rfl
      exact excludes rfl
    simp only [if_neg excludes]
    rw [ofPatterns.eq_3 _ _ noMark, bare_of_not_excludes excludes]
    cases readGlob pattern with
    | error _ => simp [bind, Except.bind]
    | ok glob =>
      cases ofPatterns rest <;> simp [bind, Except.bind, pure, Except.pure, eq_comm]

theorem exists_ofPatterns_iff :
    (∃ filter, ofPatterns paths = .ok filter) ↔
      ∀ pattern ∈ paths, ∃ glob, Glob.read (bare pattern) = .ok glob := by
  induction paths with
  | nil => simp [ofPatterns]
  | cons pattern rest ih =>
    rw [List.forall_mem_cons, ← ih]
    simp only [ofPatterns_cons_eq_ok_iff]
    constructor
    · rintro ⟨_, glob, others, isRead, restRead, -⟩
      exact ⟨⟨glob, isRead⟩, others, restRead⟩
    · rintro ⟨⟨glob, isRead⟩, others, restRead⟩
      exact ⟨_, glob, others, isRead, restRead, rfl⟩

/-- The globs of a filter are those of its patterns. -/
theorem mem_ofPatterns_iff (made : ofPatterns paths = .ok filter) :
    (glob ∈ filter.included ↔
      ∃ pattern ∈ paths, ¬ Excludes pattern ∧ Glob.read (bare pattern) = .ok glob) ∧
    (glob ∈ filter.excluded ↔
      ∃ pattern ∈ paths, Excludes pattern ∧ Glob.read (bare pattern) = .ok glob) := by
  induction paths generalizing filter with
  | nil =>
    obtain rfl := Except.ok.inj made
    simp
  | cons pattern rest ih =>
    obtain ⟨own, others, isRead, restRead, rfl⟩ := ofPatterns_cons_eq_ok_iff.mp made
    obtain ⟨included, excluded⟩ := ih restRead
    by_cases excludes : Excludes pattern
    · simp [excludes, included, excluded, isRead, eq_comm]
    · simp [excludes, included, excluded, isRead, eq_comm]

/-- A filter holds the paths that its override selects. -/
theorem contains_iff_selects {o : Override} (made : ofPatterns o.paths = .ok filter) :
    filter.contains path ↔ o.Selects path := by
  have included : (∃ glob ∈ filter.included, glob.isMatch true path) ↔
      ∃ pattern ∈ o.paths, ¬ Excludes pattern ∧ Hits pattern path := by
    simp only [(mem_ofPatterns_iff made).1, Hits]
    constructor
    · rintro ⟨glob, ⟨pattern, member, includes, isRead⟩, hit⟩
      exact ⟨pattern, member, includes, glob, isRead, hit⟩
    · rintro ⟨pattern, member, includes, glob, isRead, hit⟩
      exact ⟨glob, ⟨pattern, member, includes, isRead⟩, hit⟩
  have excluded : (∃ glob ∈ filter.excluded, glob.isMatch true path) ↔
      ∃ pattern ∈ o.paths, Excludes pattern ∧ Hits pattern path := by
    simp only [(mem_ofPatterns_iff made).2, Hits]
    constructor
    · rintro ⟨glob, ⟨pattern, member, excludes, isRead⟩, hit⟩
      exact ⟨pattern, member, excludes, glob, isRead, hit⟩
    · rintro ⟨pattern, member, excludes, glob, isRead, hit⟩
      exact ⟨glob, ⟨pattern, member, excludes, isRead⟩, hit⟩
  rw [contains, Bool.and_eq_true, List.any_eq_true, included, Bool.not_eq_true',
    ← Bool.not_eq_true, List.any_eq_true, excluded, Override.Selects]
  simp only [not_exists, not_and]

end Read

end PathFilter

namespace FileSettings

section Compile

variable {c : Configuration} {forced : SettingsPatch} {s : FileSettings} {o : Override}
  {bad : BadPaths}

/-- The filter of an override, with what the override changes. -/
private def compile (o : Override) : Except BadPaths (PathFilter × SettingsPatch) :=
  ((PathFilter.ofPatterns o.paths).map fun filter => (filter, o.patch)).mapError fun _ => ⟨o.paths⟩

private theorem ofConfiguration_eq :
    ofConfiguration c forced =
      c.overrides.mapM compile >>= fun overrides =>
        pure { base := c.settings, overrides, forced } := by
  unfold ofConfiguration
  congr 2
  funext o
  unfold compile
  cases PathFilter.ofPatterns o.paths <;> rfl

private theorem compile_eq_ok_iff {e : PathFilter × SettingsPatch} :
    compile o = .ok e ↔ PathFilter.ofPatterns o.paths = .ok e.1 ∧ o.patch = e.2 := by
  unfold compile
  cases PathFilter.ofPatterns o.paths <;> simp [Except.map, Except.mapError, Prod.ext_iff]

private theorem exists_compile_iff : (∃ e, compile o = .ok e) ↔ o.IsValid := by
  simp only [compile_eq_ok_iff, Override.IsValid, ← PathFilter.exists_ofPatterns_iff]
  constructor
  · rintro ⟨e, made, -⟩
    exact ⟨e.1, made⟩
  · rintro ⟨filter, made⟩
    exact ⟨(filter, o.patch), made, rfl⟩

private theorem compile_eq_error_iff : compile o = .error bad ↔ ¬ o.IsValid ∧ bad = ⟨o.paths⟩ := by
  rw [← exists_compile_iff]
  unfold compile
  cases PathFilter.ofPatterns o.paths <;> simp [Except.map, Except.mapError, eq_comm]

/-- What is read are the overrides, each with its filter. -/
private theorem forall₂_compile_of_ok (made : ofConfiguration c forced = .ok s) :
    List.Forall₂ (fun o e => compile o = .ok e) c.overrides s.overrides ∧
      s.base = c.settings ∧ s.forced = forced := by
  rw [ofConfiguration_eq] at made
  cases compiled : c.overrides.mapM compile with
  | error bad => simp [compiled, bind, Except.bind] at made
  | ok overrides =>
    rw [compiled] at made
    obtain rfl := Except.ok.inj made
    exact ⟨Traversal.mapM_eq_ok_iff.mp compiled, rfl, rfl⟩

/-- A configuration is refused for its first override with a pattern that is no glob. -/
theorem ofConfiguration_eq_error_iff :
    ofConfiguration c forced = .error bad ↔
      ∃ before o after, c.overrides = before ++ o :: after ∧
        (∀ earlier ∈ before, earlier.IsValid) ∧ ¬ o.IsValid ∧ bad = ⟨o.paths⟩ := by
  have refused : ofConfiguration c forced = .error bad ↔ c.overrides.mapM compile = .error bad := by
    rw [ofConfiguration_eq]
    cases c.overrides.mapM compile <;> simp [bind, Except.bind, pure, Except.pure]
  rw [refused, Traversal.mapM_eq_error_iff]
  simp only [exists_compile_iff, compile_eq_error_iff]

theorem exists_ofConfiguration_iff :
    (∃ s, ofConfiguration c forced = .ok s) ↔ ∀ o ∈ c.overrides, o.IsValid := by
  constructor
  · rintro ⟨s, made⟩
    have valid : List.Forall₂ (fun o e => o.IsValid ∧ compile o = .ok e) c.overrides s.overrides :=
      (forall₂_compile_of_ok made).1.imp fun o e compiled =>
        ⟨exists_compile_iff.mp ⟨e, compiled⟩, compiled⟩
    exact ((List.forall₂_and_left _ _).mp valid).1
  · intro valid
    cases made : ofConfiguration c forced with
    | ok s => exact ⟨s, rfl⟩
    | error bad =>
      obtain ⟨before, o, after, split, -, invalid, -⟩ := ofConfiguration_eq_error_iff.mp made
      exact absurd (valid o (split ▸ List.mem_append_cons_self)) invalid

end Compile

section Fold

variable {α : Type} {setting : SettingsPatch → Option α} {o : Override} {overrides : List Override}
  {filters : List (PathFilter × SettingsPatch)} {path : Text} {value : α} {forced : SettingsPatch}

theorem lastSets_cons_iff :
    LastSets setting (o :: overrides) path value ↔
      LastSets setting overrides path value ∨
        (o.Selects path ∧ setting o.patch = some value) ∧ NoneSets setting overrides path := by
  constructor
  · rintro ⟨before, last, after, split, selects, sets, rest⟩
    rcases List.cons_eq_append_iff.mp split with ⟨rfl, same⟩ | ⟨before, rfl, rfl⟩
    · obtain ⟨rfl, rfl⟩ := List.cons.inj same
      exact Or.inr ⟨⟨selects, sets⟩, rest⟩
    · exact Or.inl ⟨before, last, after, rfl, selects, sets, rest⟩
  · rintro (⟨before, last, after, rfl, selects, sets, rest⟩ | ⟨⟨selects, sets⟩, rest⟩)
    · exact ⟨o :: before, last, after, rfl, selects, sets, rest⟩
    · exact ⟨[], o, overrides, rfl, selects, sets, rest⟩

theorem noneSets_cons_iff :
    NoneSets setting (o :: overrides) path ↔
      (o.Selects path → setting o.patch = none) ∧ NoneSets setting overrides path :=
  List.forall_mem_cons

/-- The settings of a file before anything is forced. -/
def configured (filters : List (PathFilter × SettingsPatch)) (path : Text) (base : Settings) :
    Settings :=
  filters.foldl (fun settings e => if e.1.contains path then settings.patched e.2 else settings) base

/-- One setting after all overrides: that of the last one that has it, or as it was before. -/
private theorem get_configured_iff (get : Settings → α)
    (patched : ∀ s p, get (Settings.patched s p) = (setting p).getD (get s))
    (compiled : List.Forall₂ (fun o e => compile o = .ok e) overrides filters) (base : Settings) :
    get (configured filters path base) = value ↔
      LastSets setting overrides path value ∨
        NoneSets setting overrides path ∧ get base = value := by
  induction compiled generalizing base with
  | nil =>
    have none : ¬ LastSets setting [] path value := by
      rintro ⟨before, o, after, split, -⟩
      simp at split
    simp [configured, none, NoneSets]
  | @cons o e overrides filters made _ ih =>
    -- What the first override sets is the start of the others, and shows if none of them sets it.
    obtain ⟨filterMade, samePatch⟩ := compile_eq_ok_iff.mp made
    have selected : e.1.contains path ↔ o.Selects path :=
      PathFilter.contains_iff_selects filterMade
    rw [configured, List.foldl_cons, ← configured, ih, lastSets_cons_iff, noneSets_cons_iff]
    by_cases selects : o.Selects path
    · rw [if_pos (selected.mpr selects), patched, ← samePatch]
      cases sets : setting o.patch with
      | none => simp [selects]
      | some own => simp [selects, and_comm]
    · rw [if_neg (mt selected.mp selects)]
      simp [selects]

/-- One setting of a file, forced or not. -/
private theorem get_forPath_iff {s : FileSettings} {c : Configuration} (get : Settings → α)
    (patched : ∀ s p, get (Settings.patched s p) = (setting p).getD (get s))
    (made : ofConfiguration c forced = .ok s) (path : Text) (value : α) :
    get (s.forPath path) = value ↔
      Decided setting forced c.overrides path (get c.settings) value := by
  obtain ⟨compiled, base, isForced⟩ := forall₂_compile_of_ok made
  have split : s.forPath path = (configured s.overrides path s.base).patched s.forced := rfl
  have unforced : get (configured s.overrides path s.base) = value ↔
      LastSets setting c.overrides path value ∨
        NoneSets setting c.overrides path ∧ get s.base = value :=
    get_configured_iff get patched compiled s.base
  rw [split, patched, isForced]
  cases sets : setting forced with
  | some own =>
    rw [Option.getD_some]
    constructor
    · rintro rfl
      exact .byForce sets
    · rintro (forces | ⟨unset, _⟩ | ⟨unset, _⟩)
      · exact Option.some.inj (sets.symm.trans forces)
      · simp [unset] at sets
      · simp [unset] at sets
  | none =>
    rw [Option.getD_none, unforced, base]
    constructor
    · rintro (last | ⟨none, rfl⟩)
      · exact .byOverride sets last
      · exact .byDefault sets none
    · rintro (forces | ⟨_, last⟩ | ⟨_, none⟩)
      · simp [sets] at forces
      · exact Or.inl last
      · exact Or.inr ⟨none, rfl⟩

end Fold

/-- A configuration is usable exactly when every pattern is a glob, and else refused for its first
override with one that is none. Each setting of each file is decided without the others. -/
theorem settings_of_configuration (c : Configuration) (forced : SettingsPatch) :
    ((∃ s, ofConfiguration c forced = .ok s) ↔ ∀ o ∈ c.overrides, o.IsValid) ∧
    (∀ bad, ofConfiguration c forced = .error bad ↔
      ∃ before o after, c.overrides = before ++ o :: after ∧
        (∀ earlier ∈ before, earlier.IsValid) ∧ ¬ o.IsValid ∧ bad = ⟨o.paths⟩) ∧
    ∀ s, ofConfiguration c forced = .ok s → ∀ path,
      (∀ length, (s.forPath path).minimumLength = length ↔
        Decided (·.minimumLength) forced c.overrides path c.settings.minimumLength length) ∧
      (∀ check, (s.forPath path).checkReferences = check ↔
        Decided (·.checkReferences) forced c.overrides path c.settings.checkReferences check) ∧
      ∀ require, (s.forPath path).requireOverride = require ↔
        Decided (·.requireOverride) forced c.overrides path c.settings.requireOverride require := by
  refine ⟨exists_ofConfiguration_iff, fun _ => ofConfiguration_eq_error_iff, ?_⟩
  intro s made path
  exact ⟨get_forPath_iff Settings.minimumLength (fun _ _ => rfl) made path,
    get_forPath_iff Settings.checkReferences (fun _ _ => rfl) made path,
    get_forPath_iff Settings.requireOverride (fun _ _ => rfl) made path⟩

section Shop

private def everyClass : Override :=
  ⟨["!Gen*", "*.java"], { minimumLength := some 20, checkReferences := some false }⟩

private def shopOnly : Override :=
  ⟨["Shop*"], { minimumLength := some 5 }⟩

/-- The length comes from the second override, the references from the first, the annotation from
what is forced. Of two bad overrides the first is named. -/
theorem settings_of_shop :
    let c : Configuration := ⟨{}, [everyClass, shopOnly]⟩
    let forced : SettingsPatch := { requireOverride := some true }
    (∃ s, ofConfiguration c forced = .ok s ∧
      (s.forPath "Shop.java").minimumLength = 5 ∧
      (s.forPath "Shop.java").checkReferences = false ∧
      (s.forPath "Shop.java").requireOverride = true ∧
      (s.forPath "GenShop.java").minimumLength = 10) ∧
    ofConfiguration ⟨{}, [everyClass, ⟨["a", "!["], {}⟩, ⟨["["], {}⟩]⟩ forced =
      .error ⟨["a", "!["]⟩ := by
  intro c forced
  constructor
  · obtain ⟨usable, -, decided⟩ := settings_of_configuration c forced
    obtain ⟨s, made⟩ := usable.mpr (by decide +kernel)
    obtain ⟨length, check, require⟩ := decided s made "Shop.java"
    refine ⟨s, made, (length 5).mpr ?_, (check false).mpr ?_, (require true).mpr ?_, ?_⟩
    · exact .byOverride rfl ⟨[everyClass], shopOnly, [], rfl, by decide +kernel, rfl, by simp⟩
    · exact .byOverride rfl
        ⟨[], everyClass, [shopOnly], rfl, by decide +kernel, rfl, by simp [shopOnly]⟩
    · exact .byForce rfl
    · refine ((decided s made "GenShop.java").1 10).mpr (.byDefault rfl ?_)
      unfold NoneSets
      decide +kernel
  · refine ((settings_of_configuration _ forced).2.1 _).mpr ?_
    exact ⟨[everyClass], _, _, rfl, by decide +kernel, by decide +kernel, rfl⟩

end Shop

end FileSettings

end DocAudit
